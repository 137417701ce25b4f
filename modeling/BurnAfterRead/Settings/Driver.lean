import BurnAfterRead.Failure
import BurnAfterRead.Text.Blank
import BurnAfterRead.Text.Split

/-!
# Storage drivers

The engines that secrets can be kept in, and the names they are known by.
-/

namespace BurnAfterRead

/-- A storage engine. -/
inductive Driver where
  | memory
  | mongo
  | redis
  | postgres
  | mssql
  | mysql
  | mariadb
  | sqlite
  deriving DecidableEq, Repr, Inhabited

namespace Driver

/-- Every driver. -/
def all : List Driver := [memory, mongo, redis, postgres, mssql, mysql, mariadb, sqlite]

/-- The name that a driver is shown by. -/
def name : Driver → String
  | memory => "memory"
  | mongo => "mongo"
  | redis => "redis"
  | postgres => "postgres"
  | mssql => "mssql"
  | mysql => "mysql"
  | mariadb => "mariadb"
  | sqlite => "sqlite"

/-- The name of a driver among the constructors, as diagnostic texts show it. -/
def label : Driver → String
  | memory => "Memory"
  | mongo => "Mongo"
  | redis => "Redis"
  | postgres => "Postgres"
  | mssql => "MsSql"
  | mysql => "MySql"
  | mariadb => "MariaDb"
  | sqlite => "Sqlite"

/-- Every name that selects a driver. -/
def names : Driver → List String
  | memory => ["memory", "inmem"]
  | mongo => ["mongo", "mongodb"]
  | redis => ["redis"]
  | postgres => ["postgres", "postgresql", "pgx"]
  | mssql => ["mssql", "sqlserver"]
  | mysql => ["mysql"]
  | mariadb => ["mariadb"]
  | sqlite => ["sqlite", "sqlite3"]

/-- Whether the driver keeps rows in a table. -/
def isRelational : Driver → Bool
  | memory | mongo | redis => false
  | _ => true

/-- Selects a driver by one of its names; blanks around it and letter case do not matter. -/
def parse (input : String) : Except Failure Driver :=
  let wanted := String.ofList (Text.lower (Text.trim input.toList))
  match all.find? fun d => d.names.contains wanted with
  | some d => .ok d
  | none => .error (.unsupportedDriver wanted)

theorem parse_name (d : Driver) : parse d.name = .ok d := by
  cases d <;> rfl

end Driver

end BurnAfterRead
