import BurnAfterRead.Store.Record

/-!
# What a store is asked

The five commands that every store understands, and how it answers them. An unknown identifier and
a removal without effect are answered `secretNotFound`, a sweep without effect `nothingSwept`.
-/

namespace BurnAfterRead

inductive Command where
  /-- Look up a record. -/
  | find (id : String)
  /-- Store a record under a new identifier. -/
  | insert (draft : Draft)
  /-- Remove a record. -/
  | remove (id : String)
  /-- Remove every record that has expired. -/
  | sweep
  /-- Give up the connections. -/
  | close
  deriving DecidableEq, Repr

/-- What a command is answered with if it succeeds. -/
def Command.Result : Command → Type
  | find _ => Record
  | insert _ => Record
  | remove _ => Unit
  | sweep => Nat
  | close => Unit

/-- The answer to a command. -/
abbrev Command.Reply (c : Command) : Type := Except Failure c.Result

/-- A store: how it answers a command at a time, in a state of its own. -/
abbrev Store (σ : Type) : Type := Instant → (c : Command) → σ → c.Reply × σ

end BurnAfterRead
