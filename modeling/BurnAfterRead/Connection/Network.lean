import BurnAfterRead.Connection.Address
import BurnAfterRead.Connection.Uri

/-!
# Connections to Postgres and MySQL

Where such a server is, who connects to it, and how the connection is protected. A full address in
the settings is used as it is; its query may override any part of it.
-/

namespace BurnAfterRead

/-- How a connection is protected. -/
inductive TlsMode where
  | disabled
  /-- Encrypted if the server insists. -/
  | allowed
  /-- Encrypted if the server can. -/
  | preferred
  | required
  /-- Encrypted, with a certificate of a known authority. -/
  | verifyAuthority
  /-- Encrypted, with a certificate of a known authority for this very host. -/
  | verifyHost
  deriving DecidableEq, Repr

structure Endpoint where
  host : String
  port : Nat
  username : String
  database : Option String
  password : Option String
  tls : TlsMode
  deriving DecidableEq, Repr

namespace Connection

/-- What a kind of server adds to the settings. -/
structure ServerKind where
  defaultPort : Nat
  defaultUser : String
  /-- The names of the modes of protection. -/
  tlsNames : List (String × TlsMode)
  /-- How a parameter of a full address changes the endpoint. -/
  parameter : String → String → Endpoint → Option Endpoint

namespace ServerKind

/-- Reads the name of a mode; letter case does not matter. -/
def tlsMode? (k : ServerKind) (name : String) : Option TlsMode :=
  k.tlsNames.lookup (String.ofList (Text.lower name.toList))

/-- The endpoint where nothing is said. -/
def standard (k : ServerKind) : Endpoint :=
  ⟨"localhost", k.defaultPort, k.defaultUser, none, none, .preferred⟩

/-- Whether a host, once its percent signs are read, is a path and so the place of a socket. -/
def namesSocket (host : List Char) : Bool :=
  (Text.percentDecode host).head? = some '/'.toUInt8

/-- Reads a full address. -/
def ofUri? (k : ServerKind) (s : String) : Option Endpoint := do
  let uri ← Uri.ofText? s
  let e := k.standard
  let e := match uri.host? with
    | some host => if namesSocket host then e else { e with host := String.ofList host }
    | none => e
  let e := { e with port := uri.port?.getD e.port }
  let e ← if uri.username = [] then some e
    else (Text.percentText? uri.username).map fun name => { e with username := name }
  let e ← match uri.password? with
    | some word => (Text.percentText? word).map fun word => { e with password := some word }
    | none => some e
  let e ← if uri.name = [] then some e
    else (Text.percentText? uri.name).map fun name => { e with database := some name }
  uri.pairs.foldlM (fun e p => k.parameter p.1 p.2 e) e

/-- The endpoint of some settings. -/
def endpoint (k : ServerKind) (db : DatabaseSettings) : Except Failure Endpoint :=
  match db.uri with
  | some uri => require "unusable address" (k.ofUri? uri)
  | none => do
    let (host, port) ← splitHostPort (← requireAddress db) k.defaultPort
    let tls ← match db.tlsMode with
      | some name => require "unknown mode of protection" (k.tlsMode? name)
      | none => .ok .preferred
    .ok ⟨host, port, db.username.getD k.defaultUser, some db.database, db.password, tls⟩

end ServerKind

/-- A number of at most `limit`, in a parameter. -/
def number? (limit : Nat) (value : String) : Option Nat := Text.readUpTo limit value.toList

/-- The modes of protection of Postgres. -/
def postgresTls : List (String × TlsMode) :=
  [("disable", .disabled), ("allow", .allowed), ("prefer", .preferred), ("require", .required),
    ("verify-ca", .verifyAuthority), ("verify-full", .verifyHost)]

/-- A parameter of a Postgres address; unknown ones are passed over. A host that is a path names a
socket and leaves the host as it is. -/
def postgresParameter (key value : String) (e : Endpoint) : Option Endpoint :=
  match key with
  | "sslmode" | "ssl-mode" =>
    (postgresTls.lookup (String.ofList (Text.lower value.toList))).map fun m => { e with tls := m }
  | "statement-cache-capacity" => (number? Text.maxUInt64 value).map fun _ => e
  | "host" => some (if value.startsWith "/" then e else { e with host := value })
  | "hostaddr" =>
    if (Http.IpAddress.readV4? value.toList).isSome ||
        (Http.IpAddress.readV6? value.toList).isSome then
      some { e with host := value }
    else none
  | "port" => (number? Text.maxUInt16 value).map fun port => { e with port := port }
  | "dbname" => some { e with database := some value }
  | "user" => some { e with username := value }
  | "password" => some { e with password := some value }
  | _ => some e

/-- Postgres; without a user's name the one of the running program counts. -/
def postgres (systemUser : String) : ServerKind :=
  ⟨5432, systemUser, postgresTls, postgresParameter⟩

/-- The modes of protection of MySQL. -/
def mysqlTls : List (String × TlsMode) :=
  [("disabled", .disabled), ("preferred", .preferred), ("required", .required),
    ("verify_ca", .verifyAuthority), ("verify_identity", .verifyHost)]

/-- A parameter of a MySQL address; unknown ones are passed over. -/
def mysqlParameter (key value : String) (e : Endpoint) : Option Endpoint :=
  match key with
  | "sslmode" | "ssl-mode" =>
    (mysqlTls.lookup (String.ofList (Text.lower value.toList))).map fun m => { e with tls := m }
  | "statement-cache-capacity" => (number? Text.maxUInt64 value).map fun _ => e
  | _ => some e

/-- MySQL and MariaDB. -/
def mysql : ServerKind := ⟨3306, "root", mysqlTls, mysqlParameter⟩

end Connection

end BurnAfterRead
