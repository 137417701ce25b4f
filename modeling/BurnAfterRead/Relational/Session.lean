import BurnAfterRead.Dialogue
import BurnAfterRead.Failure

/-!
# Sessions on a shared client

One client serves every caller, one at a time. A caller opens a session on the slot that holds the
client. A session that is finished leaves the client there; one that is dropped, because it failed
or was interrupted, leaves the slot empty, and the next caller dials a new client. Once the
connection is closed, callers are turned away before they reach the slot.
-/

namespace BurnAfterRead

/-- What a caller is told after the connection was closed. -/
def connectionClosed : Failure := .storageUnavailable "mssql connection closed"

/-- Exclusive use of the slot. -/
structure Session (α : Type) where
  slot : Option α
  deriving DecidableEq, Repr

namespace Session

variable {α : Type}

/-- The client, if the slot holds one. -/
def client (s : Session α) : Except Failure α :=
  match s.slot with
  | some c => .ok c
  | none => .error connectionClosed

/-- Changes the client in its slot. -/
def change (f : α → α) (s : Session α) : Session α := ⟨s.slot.map f⟩

/-- The slot after a session whose last statement was answered. -/
def finish (s : Session α) : Option α := s.slot

/-- The slot after a session that stopped anywhere else. -/
def drop (_ : Session α) : Option α := none

end Session

/-- A step of a caller on a shared client, for statements `S`. -/
inductive SessionStep (S : Type) where
  /-- Ask whether the connection was closed. -/
  | isClosed
  /-- Wait for the slot, and ask whether a client is in it. -/
  | acquire
  /-- Put a new client into the slot. -/
  | dial
  /-- Have the client run a statement. -/
  | run (statement : S)
  /-- Let go of the slot, with its client or without. -/
  | release (finished : Bool)
  /-- Mark the connection as closed. -/
  | markClosed
  /-- Take the client out of the slot and let it hang up. -/
  | hangUp
  deriving DecidableEq, Repr

/-- The answer to a step, for statements that have results of type `R`. -/
def SessionStep.Answer {S : Type} (R : S → Type) : SessionStep S → Type
  | isClosed => Bool
  | acquire => Bool
  | dial => Except Failure Unit
  | run statement => Except Failure (R statement)
  | release _ => Unit
  | markClosed => Unit
  | hangUp => Except Failure Unit

namespace Session

variable {S : Type} {R : S → Type} {α : Type}

/-- The steps of one caller. -/
abbrev Steps (R : S → Type) (α : Type) : Type := Dialogue (SessionStep S) (SessionStep.Answer R) α

/-- Statements run one after the other; the first that fails ends the session without its client. -/
def perform : Dialogue S R α → Steps R (Except Failure α)
  | .done result => .ask (.release true) fun _ => .done (.ok result)
  | .ask statement next => .ask (.run statement) fun
    | .ok answer => perform (next answer)
    | .error f => .ask (.release false) fun _ => .done (.error f)

/-- Opens a session, on a new client if the slot is empty, and runs statements in it. -/
def within (script : Dialogue S R α) : Steps R (Except Failure α) :=
  .ask .isClosed fun (closed : Bool) =>
    if closed then .done (.error connectionClosed)
    else .ask .acquire fun (there : Bool) =>
      if there then perform script
      else .ask .dial fun
        | .ok () => perform script
        | .error f => .ask (.release false) fun _ => .done (.error f)

/-- Closes the connection: later callers are turned away, and the client hangs up. -/
def close : Steps R (Except Failure Unit) :=
  .ask .markClosed fun _ => .ask .acquire fun (there : Bool) =>
    if there then .ask .hangUp fun answer => .ask (.release false) fun _ => .done answer
    else .ask (.release false) fun _ => .done (.ok ())

end Session

end BurnAfterRead
