import BurnAfterRead.Settings.Basic
import BurnAfterRead.Text.Numeral

/-!
# Hosts and ports

A database's address is a host with an optional port behind the last colon. Faults of the settings
that describe a connection are faults of the configuration.
-/

namespace BurnAfterRead.Connection

/-- The address that a driver needs where no full one is given. -/
def requireAddress (db : DatabaseSettings) : Except Failure String :=
  match db.address with
  | some address => .ok address
  | none =>
    .error (.badConfiguration (db.driver.name ++ " needs database.uri or database.address"))

/-- Cuts an address into host and port. Without a colon, or with nothing before it, the whole
address is the host. -/
def splitHostPort (address : String) (defaultPort : Nat) : Except Failure (String × Nat) :=
  match Text.cutLast ':' address.toList with
  | some (c :: host, port) =>
    match Text.readUpTo Text.maxUInt16 port with
    | some n => .ok (String.ofList (c :: host), n)
    | none => .error (.badConfiguration ("invalid port in address '" ++ address ++ "'"))
  | _ => .ok (address, defaultPort)

/-- A fault in a connection's settings. -/
def unusable (detail : String) : Failure :=
  .badConfiguration ("invalid database connection settings: " ++ detail)

/-- A value that has to be there. -/
def require {α : Type} (detail : String) : Option α → Except Failure α
  | some a => .ok a
  | none => .error (unusable detail)

/-- Whether a mode asks for an encrypted connection, where only that is to be told. -/
def asksForTls (mode : Option String) : Bool :=
  match mode with
  | none => false
  | some mode => !(["", "disable", "false"].contains mode)

end BurnAfterRead.Connection
