import BurnAfterRead.Dialogue
import BurnAfterRead.Relational.Row
import BurnAfterRead.Store.Command

/-!
# Records in a table of texts

An engine that keeps the expiry as text, and compares it with the text of the current second. A new
row is inserted and read back within one transaction, which is rolled back if either fails.
`TextTable.command` is the client's side, `Table` the engine's.
-/

namespace BurnAfterRead.TextTable

/-- What the engine is asked. -/
inductive Request where
  | begin
  | commit
  | rollback
  | insert (row : TextRow)
  | select (id : String)
  | delete (id : String)
  /-- Remove the rows whose text comes before the text of the current second. -/
  | deleteExpired
  | close
  deriving DecidableEq, Repr

/-- What the engine answers; a deletion with the number of rows that are gone. -/
def Request.Answer : Request → Type
  | begin => Except Failure Unit
  | commit => Except Failure Unit
  | rollback => Except Failure Unit
  | insert _ => Except Failure Unit
  | select _ => Except RowFault Record
  | delete _ => Except Failure Nat
  | deleteExpired => Except Failure Nat
  | close => Except Failure Unit

abbrev Talk (α : Type) : Type := Dialogue Request Request.Answer α

/-- Undoes a transaction that failed; whether that succeeds changes nothing about the failure. -/
def abandon (f : Failure) : Talk (Except Failure Record) := .ask .rollback fun _ => .done (.error f)

/-- Inserts a row and reads it back; a row that is not there after all is the engine's fault. -/
def insertAndSelect (r : Record) : Talk (Except Failure Record) :=
  .ask .begin fun
    | .error f => .done (.error f)
    | .ok () => .ask (.insert (.ofRecord r)) fun
      | .error f => abandon f
      | .ok () => .ask (.select r.id) fun
        | .error .absent => abandon (.storageUnavailable "no row to read back")
        | .error (.engine detail) => abandon (.storageUnavailable detail)
        | .ok stored => .ask .commit fun answer => .done (answer.map fun _ => stored)

/-- A store's command as requests to the engine. -/
def command : (c : Command) → Talk c.Reply
  | .find id => .ask (.select id) fun answer => .done (answer.mapError RowFault.toFailure)
  | .insert draft =>
    insertAndSelect draft.record
  | .remove id => .ask (.delete id) fun answer => .done (answer.bind removedOne)
  | .sweep => .ask .deleteExpired fun answer => .done (answer.bind removedSome)
  | .close => .ask .close .done

/-- The rows of a table, those of an open transaction, and whether the table can still be used. -/
structure Table where
  rows : List TextRow
  open? : Option (List TextRow)
  isClosed : Bool
  deriving DecidableEq, Repr

namespace Table

def empty : Table := ⟨[], none, false⟩

/-- The rows as the one who has the transaction sees them. -/
def current (t : Table) : List TextRow := t.open?.getD t.rows

/-- Changes the rows, within the transaction if there is one. -/
def setCurrent (t : Table) (rows : List TextRow) : Table :=
  match t.open? with
  | some _ => { t with open? := some rows }
  | none => { t with rows := rows }

/-- The text of the second that a time lies in; the engine knows the years 0 to 9999 only. -/
def secondText? (now : Instant) : Option (List Char) :=
  let second : Instant := ⟨now.seconds, 0⟩
  let year := (Calendar.dateOfDay (now.seconds / 86400)).year
  if 0 ≤ year ∧ year ≤ 9999 then some (Timestamp.write .column second) else none

/-- The rows that a sweep leaves: those whose text does not come before the current second's. -/
def keep (now : Instant) (rows : List TextRow) : List TextRow :=
  match secondText? now with
  | some second => rows.filter fun r => !decide (r.expiresAt.toList < second)
  | none => rows

/-- The answer of an engine that does what it is asked. -/
def answerOpen (now : Instant) : (q : Request) → Table → q.Answer × Table
  | .begin, t => (.ok (), { t with open? := some t.rows })
  | .commit, t => (.ok (), { t with rows := t.current, open? := none })
  | .rollback, t => (.ok (), { t with open? := none })
  | .insert row, t =>
    if t.current.any (·.id == row.id) then (.error (.storageUnavailable "identifier in use"), t)
    else (.ok (), t.setCurrent (t.current ++ [row]))
  | .select id, t =>
    match t.current.find? (·.id == id) with
    | none => (.error .absent, t)
    | some row =>
      match row.toRecord? with
      | some r => (.ok r, t)
      | none => (.error (.engine "not a time"), t)
  | .delete id, t =>
    let kept := t.current.filter (·.id != id)
    (.ok (t.current.length - kept.length), t.setCurrent kept)
  | .deleteExpired, t =>
    let kept := keep now t.current
    (.ok (t.current.length - kept.length), t.setCurrent kept)
  | .close, t => (.ok (), { t with isClosed := true })

/-- What a request is answered once the connections were given up. -/
def refusal : (q : Request) → q.Answer
  | .begin => .error (.storageUnavailable "closed")
  | .commit => .error (.storageUnavailable "closed")
  | .rollback => .error (.storageUnavailable "closed")
  | .insert _ => .error (.storageUnavailable "closed")
  | .select _ => .error (.engine "closed")
  | .delete _ => .error (.storageUnavailable "closed")
  | .deleteExpired => .error (.storageUnavailable "closed")
  | .close => .ok ()

/-- The engine's answer to a request. -/
def answer (now : Instant) (q : Request) (t : Table) : q.Answer × Table :=
  if t.isClosed then (refusal q, t) else answerOpen now q t

/-- The table after its connections were given up and new ones opened. -/
def reopened (t : Table) : Table := ⟨t.rows, none, false⟩

end Table

/-- A store on such an engine. -/
def store : Store Table := fun now c t => (command c).run (Table.answer now) t

end BurnAfterRead.TextTable
