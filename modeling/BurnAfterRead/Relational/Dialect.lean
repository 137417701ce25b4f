import BurnAfterRead.Settings.Driver

/-!
# Statements of the relational engines

The five statements that a table of secrets is used through, in the dialect of each engine. The
table's name becomes part of the statements, so it is restricted to letters, digits and underscores.
-/

namespace BurnAfterRead

/-- The way an engine writes its statements. -/
inductive Dialect where
  | postgres
  | mssql
  | mysql
  | sqlite
  deriving DecidableEq, Repr

namespace Dialect

/-- The dialect of a driver; drivers without tables have none. -/
def ofDriver : Driver → Except Failure Dialect
  | .postgres => .ok postgres
  | .mssql => .ok mssql
  | .mysql | .mariadb => .ok mysql
  | .sqlite => .ok sqlite
  | other => .error (.unsupportedDriver (other.name ++ " is not a SQL driver"))

/-- The name of a store in this dialect. -/
def name : Dialect → String
  | postgres => "postgres"
  | mssql => "mssql"
  | mysql => "mysql"
  | sqlite => "sqlite"

/-- The columns of an identifier, a value and an expiry. -/
def columns : Dialect → String × String × String
  | mssql => ("ID", "Value", "ExpiresAt")
  | _ => ("id", "value", "expires_at")

/-- What stands for the first three values that are bound to a statement. -/
def placeholders : Dialect → String × String × String
  | postgres => ("$1", "$2", "$3")
  | mssql => ("@P1", "@P2", "@P3")
  | mysql => ("?", "?", "?")
  | sqlite => ("?1", "?2", "?3")

/-- The engine's own reading of the clock. -/
def currentTime : Dialect → String
  | postgres => "NOW()"
  | mssql => "GETUTCDATE()"
  | mysql => "UTC_TIMESTAMP(6)"
  | sqlite => "DATETIME('now')"

end Dialect

/-- The statements on one table. -/
structure Statements where
  createTable : String
  selectById : String
  insert : String
  delete : String
  deleteExpired : String
  deriving DecidableEq, Repr

namespace Statements

/-- The table that is used where none is named. -/
def defaultTable : String := "secrets"

/-- The most characters that a table's name has. -/
def maxTableName : Nat := 64

/-- Names of ASCII letters, digits and underscores that do not begin with a digit. -/
def isTableName (cs : List Char) : Bool :=
  match cs with
  | [] => false
  | c :: _ => cs.length ≤ maxTableName && cs.all (fun c => c.isAlphanum || c = '_') && !c.isDigit

/-- The name with its first letter capital. -/
def capitalized (name : String) : String :=
  match name.toList with
  | [] => ""
  | c :: cs => String.ofList (c.toUpper :: cs)

/-- The name of a table as the dialect writes it. -/
def tableName (dialect : Dialect) (table : String) : String :=
  match dialect with
  | .mssql => capitalized table
  | _ => table

/-- Creates the table if it is not there. -/
def create (dialect : Dialect) (table : String) : String :=
  match dialect with
  | .postgres =>
    "CREATE TABLE IF NOT EXISTS " ++ table ++
      " (id UUID PRIMARY KEY, value TEXT NOT NULL, expires_at TIMESTAMPTZ NOT NULL)"
  | .mssql =>
    "IF NOT EXISTS (SELECT * FROM sysobjects WHERE name='" ++ table ++ "' and xtype='U') " ++
      "CREATE TABLE " ++ table ++
      " (ID VARCHAR(36) NOT NULL PRIMARY KEY, Value NVARCHAR(MAX) NOT NULL, " ++
      "ExpiresAt DATETIMEOFFSET NOT NULL)"
  | .mysql =>
    "CREATE TABLE IF NOT EXISTS " ++ table ++
      " (id VARCHAR(36) NOT NULL PRIMARY KEY, value LONGTEXT NOT NULL, " ++
      "expires_at DATETIME(6) NOT NULL)"
  | .sqlite =>
    "CREATE TABLE IF NOT EXISTS " ++ table ++
      " (id TEXT NOT NULL PRIMARY KEY, value TEXT NOT NULL, expires_at DATETIME NOT NULL)"

/-- The statements of a dialect on a table. -/
def new (dialect : Dialect) (table : String) : Except Failure Statements :=
  if isTableName table.toList then
    let table := tableName dialect table
    let (id, value, expiresAt) := dialect.columns
    let (first, second, third) := dialect.placeholders
    .ok {
      createTable := create dialect table
      selectById :=
        "SELECT " ++ id ++ ", " ++ value ++ ", " ++ expiresAt ++ " FROM " ++ table ++ " WHERE " ++
          id ++ " = " ++ first
      insert :=
        "INSERT INTO " ++ table ++ " (" ++ id ++ ", " ++ value ++ ", " ++ expiresAt ++
          ") VALUES (" ++ first ++ ", " ++ second ++ ", " ++ third ++ ")"
      delete := "DELETE FROM " ++ table ++ " WHERE " ++ id ++ " = " ++ first
      deleteExpired :=
        "DELETE FROM " ++ table ++ " WHERE " ++ expiresAt ++ " < " ++ dialect.currentTime }
  else
    .error (.badConfiguration
      ("invalid table name '" ++ table ++ "': use letters, digits, and underscores"))

end Statements

end BurnAfterRead
