import BurnAfterRead.Connection.DatabaseFile
import BurnAfterRead.Connection.Hosted
import BurnAfterRead.Connection.Network
import BurnAfterRead.Connection.SqlServer
import BurnAfterRead.Relational.Dialect
import BurnAfterRead.Relational.Reserved

/-!
# What settings lead to

The store that some settings name, with all that is needed to open it. For relational engines the
table's name is checked before the place.
-/

namespace BurnAfterRead.Connection

/-- Where a relational engine is. -/
inductive Place where
  | server (endpoint : Endpoint)
  | sqlServer (login : ServerLogin)
  | file (file : DatabaseFile)
  deriving DecidableEq, Repr

/-- A table that a relational engine keeps. -/
structure TableTarget where
  dialect : Dialect
  table : String
  statements : Statements
  place : Place
  deriving DecidableEq, Repr

inductive Target where
  | memory
  | keys (uri : String)
  | documents (uri database collection : String)
  | table (target : TableTarget)
  deriving DecidableEq, Repr

/-- Where the engine of a dialect is. -/
def Place.ofSettings (systemUser : String) (dialect : Dialect) (db : DatabaseSettings) :
    Except Failure Place :=
  match dialect with
  | .postgres => ((postgres systemUser).endpoint db).map .server
  | .mysql => (mysql.endpoint db).map .server
  | .sqlite => (DatabaseFile.ofSettings db).map .file
  | .mssql => (ServerLogin.ofSettings db).map .sqlServer

/-- The table that settings of a relational driver lead to. -/
def TableTarget.ofSettings (systemUser : String) (db : DatabaseSettings) :
    Except Failure TableTarget := do
  let dialect ← Dialect.ofDriver db.driver
  let table := db.table.getD Statements.defaultTable
  let statements ← Statements.new dialect table
  let place ← Place.ofSettings systemUser dialect db
  .ok ⟨dialect, table, statements, place⟩

namespace Target

/-- The collection that is used where none is named. -/
def defaultCollection : String := "secrets"

/-- The store that settings lead to. -/
def ofSettings (systemUser : String) (db : DatabaseSettings) : Except Failure Target :=
  match db.driver with
  | .memory => .ok .memory
  | .redis => .ok (.keys (redisUri db))
  | .mongo => .ok (.documents (mongoUri db) db.database (db.table.getD defaultCollection))
  | _ => (TableTarget.ofSettings systemUser db).map .table

/-- The name of the store. -/
def name : Target → String
  | memory => "memory"
  | keys _ => "redis"
  | documents .. => "mongo"
  | table t => t.dialect.name

end Target

/-- Opens a store where no server can be reached: only memory and files can be used, and a file only
if `canOpen` says so. -/
def Target.openLocally (canOpen : DatabaseFile → Bool) : Target → Except Failure Unit
  | memory => .ok ()
  | table ⟨_, name, _, .file file⟩ =>
    if canOpen file then TextTable.createTable name
    else .error (.storageUnavailable "unable to open the database file")
  | _ => .error (.storageUnavailable "no server can be reached")

end BurnAfterRead.Connection
