import BurnAfterRead.Failure
import BurnAfterRead.Text.Split

/-!
# Reserved words

A table's name is written into statements without quotes, so a word of the statements' own language
is no name. An engine that keeps its tables in a file also keeps names for itself.
-/

namespace BurnAfterRead.TextTable

/-- The words that are no names, in lower case. -/
def reservedWords : List String :=
  ["add", "all", "alter", "and", "as", "autoincrement", "between", "case", "check", "collate",
    "commit", "constraint", "create", "default", "deferrable", "delete", "distinct", "drop", "else",
    "escape", "except", "exists", "foreign", "from", "group", "having", "in", "index", "insert",
    "intersect", "into", "is", "isnull", "join", "limit", "not", "nothing", "notnull", "null", "on",
    "or", "order", "primary", "references", "returning", "select", "set", "table", "then", "to",
    "transaction", "union", "unique", "update", "using", "values", "when", "where"]

/-- Whether a name is a reserved word or one that the engine keeps for itself, in any letter case. -/
def isReserved (name : String) : Bool :=
  let name := Text.lower name.toList
  reservedWords.contains (String.ofList name) ||
    (Text.after? ['s', 'q', 'l', 'i', 't', 'e', '_'] name).isSome

/-- Creates the table of that name if it is not there. -/
def createTable (name : String) : Except Failure Unit :=
  if isReserved name then .error (.storageUnavailable "the table cannot be created") else .ok ()

end BurnAfterRead.TextTable
