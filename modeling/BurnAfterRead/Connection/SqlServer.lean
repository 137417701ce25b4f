import BurnAfterRead.Connection.Address

/-!
# Connections to SQL Server

The settings of a connection are given by parts, or by a text of pairs such as
`server=tcp:host,1433;user id=sa`, or by an address that begins with `jdbc:sqlserver://`. Names in
pairs are read without regard to letter case, and values may be quoted.
-/

namespace BurnAfterRead.Connection

/-- How far a connection is encrypted. -/
inductive Encryption where
  /-- Only the login. -/
  | off
  | on
  /-- Not at all. -/
  | notSupported
  | required
  deriving DecidableEq, Repr

structure ServerLogin where
  host : Option String := none
  port : Option Nat := none
  /-- A named instance on the host. -/
  instanceName : Option String := none
  database : Option String := none
  /-- A user's name and password. -/
  credentials : Option (String × String) := none
  encryption : Encryption := .required
  /-- Take any certificate of the server. -/
  trustsAll : Bool := false
  deriving DecidableEq, Repr

namespace ServerLogin

/-- Where to connect to: a dot stands for this machine, and instances are asked for at a port of
their own. -/
def address (l : ServerLogin) : String :=
  let host := match l.host with
    | some host => if host = "." then "localhost" else host
    | none => "localhost"
  let port := match l.port, l.instanceName with
    | some port, _ => port
    | none, some _ => 1434
    | none, none => 1433
  host ++ ":" ++ toString port

/-- Pairs of names and values. -/
abbrev Pairs : Type := List (String × String)

/-- Cuts at semicolons outside quotes; `quote?` is the quote that is open. -/
def cutPairs (quote? : Option Char) (current : List Char) : List Char → List (List Char)
  | [] => [current.reverse]
  | c :: rest =>
    match quote? with
    | some q => cutPairs (if c = q then none else some q) (c :: current) rest
    | none =>
      if c = ';' then current.reverse :: cutPairs none [] rest
      else if c = '"' ∨ c = '\'' then cutPairs (some c) (c :: current) rest
      else if c = '\x7b' then cutPairs (some '\x7d') (c :: current) rest
      else cutPairs none (c :: current) rest

/-- A value without the quotes around it. -/
def unquoted (cs : List Char) : List Char :=
  match cs with
  | q :: rest =>
    let close := if q = '\x7b' then '\x7d' else q
    if (q = '"' ∨ q = '\'' ∨ q = '\x7b') ∧ rest.getLast? = some close then rest.dropLast else cs
  | [] => []

/-- Reads pairs; a later one of the same name counts. Every pair needs a name and an equals sign. -/
def readPairs? (cs : List Char) : Option Pairs :=
  let parts := (cutPairs none [] cs).filter fun part => Text.trim part ≠ []
  (parts.mapM fun part => do
    let (name, value) ← Text.cutFirst '=' part
    if Text.trim name = [] then none
    else
      some (String.ofList (Text.lower (Text.trim name)), String.ofList (unquoted (Text.trim value)))).map
    List.reverse

/-- The value of the first of some names that has one. -/
def value? (pairs : Pairs) (names : List String) : Option String :=
  names.findSome? fun name => List.lookup name pairs

/-- Reads a truth value. -/
def truth? (value : String) : Option Bool :=
  match String.ofList (Text.lower (Text.trim value.toList)) with
  | "true" | "yes" => some true
  | "false" | "no" => some false
  | _ => none

/-- What the pairs say besides the place. -/
def withPairs? (pairs : Pairs) (l : ServerLogin) : Option ServerLogin := do
  let trustsAll ← match value? pairs ["trustservercertificate"] with
    | some value => truth? value
    | none => some false
  let encryption ← match value? pairs ["encrypt"] with
    | some value =>
      match truth? value with
      | some true => some Encryption.required
      | some false => some .off
      | none => if value = "DANGER_PLAINTEXT" then some .notSupported else none
    | none => some .off
  some { l with
    database := value? pairs ["database", "initial catalog", "databasename"]
    credentials := some ((value? pairs ["uid", "username", "user", "user id"]).getD "",
      (value? pairs ["password", "pwd"]).getD "")
    trustsAll := trustsAll
    encryption := encryption }

/-- Reads a host with an instance behind a backslash and a port behind a comma. -/
def readServer? (cs : List Char) : Option ServerLogin := do
  let cs := (Text.after? ['t', 'c', 'p', ':'] cs).getD cs
  let (place, port) ← match cs.splitOn ',' with
    | [place] => some (place, none)
    | [place, port] => (Text.readUpTo Text.maxUInt16 port).map fun n => (place, some n)
    | _ => none
  match place.splitOn '\\' with
  | [host] => some { host := some (String.ofList host), port := port }
  | [host, name] =>
    some {
      host := some (String.ofList host)
      port := port
      instanceName := some (String.ofList name) }
  | _ => none

/-- Reads a text of pairs. -/
def ofPairs? (cs : List Char) : Option ServerLogin := do
  let pairs ← readPairs? cs
  let start : ServerLogin ← match value? pairs ["server", "data source"] with
    | some server => readServer? server.toList
    | none => some {}
  withPairs? pairs start

/-- Reads `sqlserver://host\instance:port;name=value` after `jdbc:`. -/
def ofAddress? (cs : List Char) : Option ServerLogin := do
  let rest ← Text.after? "sqlserver://".toList cs
  let place := Text.upTo ';' rest
  let pairs ← readPairs? (rest.drop place.length)
  let (name, port) ← match Text.cutFirst ':' place with
    | some (name, port) => (Text.readUpTo Text.maxUInt16 port).map fun n => (name, some n)
    | none => some (place, none)
  let start : ServerLogin := match Text.cutFirst '\\' name with
    | some (host, inst) =>
      { host := some (String.ofList host), port := port, instanceName := some (String.ofList inst) }
    | none => { host := some (String.ofList name), port := port }
  if place = [] then none else withPairs? pairs start

/-- Reads a full address of either form. -/
def ofUri? (s : String) : Option ServerLogin :=
  match Text.after? "jdbc:".toList s.toList with
  | some rest => ofAddress? rest
  | none => ofPairs? s.toList

/-- The encryption of a mode of protection, and whether any certificate is taken. -/
def readMode : Option String → Except Failure (Encryption × Bool)
  | none => .ok (.required, false)
  | some "strict" => .ok (.required, false)
  | some "true" => .ok (.required, true)
  | some "false" | some "disable" => .ok (.off, false)
  | some other =>
    .error (.badConfiguration
      ("unsupported mssql tls mode '" ++ other ++ "' (use true, false, or strict)"))

/-- The login of some settings. -/
def ofSettings (db : DatabaseSettings) : Except Failure ServerLogin :=
  match db.uri with
  | some uri => require "unusable address" (ofUri? uri)
  | none => do
    let (host, port) ← splitHostPort (← requireAddress db) 1433
    let (encryption, trustsAll) ← readMode db.tlsMode
    .ok {
      host := some host
      port := some port
      database := some db.database
      credentials := db.username.map fun name => (name, db.password.getD "")
      encryption := encryption
      trustsAll := trustsAll }

end ServerLogin

end BurnAfterRead.Connection
