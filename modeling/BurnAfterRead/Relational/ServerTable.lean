import BurnAfterRead.Relational.Session
import BurnAfterRead.Store.Command

/-!
# Records in a server's table

Rows on a server that is reached through one shared client. A new row is inserted and read back
within one transaction; where that fails the client is given up, and the server undoes the
transaction. Times are kept in steps of 100 nanoseconds. `ServerTable.command` is the client's
side, `Server` the other.
-/

namespace BurnAfterRead.ServerTable

/-- A row as it is read; cells may be missing. -/
structure Row where
  id? : Option String
  value? : Option String
  expiresAt? : Option Instant
  deriving DecidableEq, Repr

/-- A column without a value is a fault of the row. -/
def missing (column : String) : Failure := .badRecord ("column " ++ column ++ " is NULL")

/-- The record of a row; the first missing cell is the one that is told of. -/
def Row.toRecord : Row → Except Failure Record
  | ⟨none, _, _⟩ => .error (missing "ID")
  | ⟨_, none, _⟩ => .error (missing "Value")
  | ⟨_, _, none⟩ => .error (missing "ExpiresAt")
  | ⟨some id, some value, some expiresAt⟩ => .ok ⟨id, value, expiresAt⟩

/-- The record of a row that was looked up. -/
def found : Option Row → Except Failure Record
  | some row => row.toRecord
  | none => .error .secretNotFound

inductive Statement where
  | createTable
  | begin
  | insert (record : Record)
  | select (id : String)
  | commit
  | delete (id : String)
  | deleteExpired
  deriving DecidableEq, Repr

/-- What a statement gives; a deletion the number of rows that are gone. -/
def Statement.Result : Statement → Type
  | createTable => Unit
  | begin => Unit
  | insert _ => Unit
  | select _ => Option Row
  | commit => Unit
  | delete _ => Nat
  | deleteExpired => Nat

/-- The first word of a statement. -/
def Statement.word : Statement → String
  | createTable => "IF"
  | begin => "BEGIN"
  | insert _ => "INSERT"
  | select _ => "SELECT"
  | commit => "COMMIT"
  | delete _ | deleteExpired => "DELETE"

/-- Statements that run one after the other. -/
abbrev Script (α : Type) : Type := Dialogue Statement Statement.Result α

/-- The steps of a caller on the shared client. -/
abbrev Steps (α : Type) : Type := Session.Steps Statement.Result α

/-- Makes sure that the table is there. -/
def createTable : Steps (Except Failure Unit) := Session.within (.ask .createTable .done)

/-- Inserts a row and reads it back within a transaction. -/
def insertScript (r : Record) : Script (Except Failure Record) :=
  .ask .begin fun _ => .ask (.insert r) fun _ => .ask (.select r.id) fun row =>
    .ask .commit fun _ => .done (found row)

/-- Runs a script in a session; the result may itself be a failure. -/
def inSession {α : Type} (script : Script (Except Failure α)) : Steps (Except Failure α) :=
  (Session.within script).andThen fun result => .done (result.bind id)

/-- A store's command as steps on the shared client. -/
def command : (c : Command) → Steps c.Reply
  | .find id => inSession (.ask (.select id) fun row => .done (found row))
  | .insert draft => inSession (insertScript draft.record)
  | .remove id => inSession (.ask (.delete id) fun count => .done (removedOne count))
  | .sweep => inSession (.ask .deleteExpired fun count => .done (removedSome count))
  | .close => Session.close

/-- A row under the key that it is found by. -/
structure KeyedRow where
  key : String
  cells : Row
  deriving DecidableEq, Repr

/-- A client in its slot: the rows as its open transaction has them, if one is open. -/
structure Client where
  transaction? : Option (List KeyedRow)
  deriving DecidableEq, Repr

/-- The rows of a server, the slot of the shared client, and whether the connection was closed. -/
structure Server where
  rows : List KeyedRow
  slot : Option Client
  isClosed : Bool
  deriving DecidableEq, Repr

namespace Server

def empty : Server := ⟨[], none, false⟩

/-- Nanoseconds between two times that the server tells apart. -/
def tick : Nat := 100

/-- The rows as the client sees them. -/
def visible (s : Server) : List KeyedRow := (s.slot.bind (·.transaction?)).getD s.rows

/-- Changes the rows, within the transaction if there is one. -/
def setVisible (s : Server) (rows : List KeyedRow) : Server :=
  match s.slot with
  | some ⟨some _⟩ => { s with slot := some ⟨some rows⟩ }
  | _ => { s with rows := rows }

/-- Whether a row expires before a time; a row without an expiry never does. -/
def expiresBefore (now : Instant) (r : KeyedRow) : Bool :=
  match r.cells.expiresAt? with
  | some expiresAt => expiresAt.before (now.cut tick)
  | none => false

/-- What the server does with a statement. -/
def execute (now : Instant) : (q : Statement) → Server → q.Result × Server
  | .createTable, s => ((), s)
  | .begin, s => ((), { s with slot := some ⟨some s.rows⟩ })
  | .insert r, s =>
    ((), s.setVisible (s.visible ++ [⟨r.id, some r.id, some r.value, some (r.expiresAt.cut tick)⟩]))
  | .select id, s => ((s.visible.find? (·.key == id)).map (·.cells), s)
  | .commit, s => ((), { s with rows := s.visible, slot := some ⟨none⟩ })
  | .delete id, s =>
    let kept := s.visible.filter (·.key != id)
    (s.visible.length - kept.length, s.setVisible kept)
  | .deleteExpired, s =>
    let kept := s.visible.filter fun r => !expiresBefore now r
    (s.visible.length - kept.length, s.setVisible kept)

/-- The slot without its client; a transaction that was open is undone. -/
def discard (s : Server) : Server := { s with slot := none }

/-- The answer to a step where the server answers every statement. -/
def answer (now : Instant) :
    (q : SessionStep Statement) → Server → SessionStep.Answer Statement.Result q × Server
  | .isClosed, s => (s.isClosed, s)
  | .acquire, s => (s.slot.isSome, s)
  | .dial, s => (.ok (), { s with slot := some ⟨none⟩ })
  | .run q, s => let (result, s) := execute now q s; (.ok result, s)
  | .release finished, s => ((), if finished then s else s.discard)
  | .markClosed, s => ((), { s with isClosed := true })
  | .hangUp, s => (.ok (), s.discard)

end Server

/-- A store on a server that answers every statement. -/
def store : Store Server := fun now c s => (command c).run (Server.answer now) s

end BurnAfterRead.ServerTable
