import BurnAfterRead.Id.Uuid
import BurnAfterRead.Store.Record
import BurnAfterRead.Time.Timestamp

/-!
# Rows as records

How the relational engines give a record back. Where identifiers are a column type of their own, a
text that is no identifier names no row. Where times are texts, the text of universal time is kept.
-/

namespace BurnAfterRead

/-- A row of an engine that has a type for identifiers and one for times. -/
structure TypedRow where
  id : Uuid
  value : String
  expiresAt : Instant
  deriving DecidableEq, Repr

namespace TypedRow

/-- A text that is no identifier cannot be in the table. -/
def readId (id : String) : Except Failure Uuid :=
  match Uuid.ofText? id with
  | some uuid => .ok uuid
  | none => .error .secretNotFound

def toRecord (r : TypedRow) : Record := ⟨r.id.text, r.value, r.expiresAt⟩

end TypedRow

/-- A row of an engine that keeps texts. -/
structure TextRow where
  id : String
  value : String
  expiresAt : String
  deriving DecidableEq, Repr

namespace TextRow

/-- The row of a record. -/
def ofRecord (r : Record) : TextRow :=
  ⟨r.id, r.value, String.ofList (Timestamp.write .column r.expiresAt)⟩

/-- The record of a row whose time can be read. -/
def toRecord? (r : TextRow) : Option Record :=
  (Timestamp.readColumn? r.expiresAt.toList).map fun expiresAt => ⟨r.id, r.value, expiresAt⟩

end TextRow

/-- How an engine fails to give a row. -/
inductive RowFault where
  /-- No row was selected. -/
  | absent
  /-- Anything else, with the engine's words. -/
  | engine (detail : String)
  deriving DecidableEq, Repr

/-- A row that is not there is a missing record; anything else is a fault of the engine. -/
def RowFault.toFailure : RowFault → Failure
  | absent => .secretNotFound
  | engine detail => .storageUnavailable detail

end BurnAfterRead
