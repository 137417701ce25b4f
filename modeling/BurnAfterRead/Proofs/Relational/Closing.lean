import BurnAfterRead.Proofs.Relational.Line
import Mathlib.Logic.Function.Basic

/-!
# Closing the connection among other callers

Callers take their steps in any order. The slot is for one of them at a time; the mark that the connection
was closed is there for all, and a caller looks at it before he waits for the slot. So closing turns away
whoever looks later, and with only such callers the slot stays empty. A caller who looked before is not
turned away: if he gets hold of the slot after it was emptied, he dials, and leaves a new client in it.
-/

namespace BurnAfterRead.ServerTable

/-- The line, the caller who holds its slot, and the steps that are left to each caller; one who has given up
has none. -/
structure Floor where
  line : Line
  holder? : Option Nat
  left : Nat → Option (Steps (Except Failure Unit))

/-- Who may take a step: the slot is waited for until no one holds it, and only its holder does anything
with it. -/
def Permits (holder? : Option Nat) (i : Nat) : SessionStep Statement → Prop
  | .isClosed | .markClosed => True
  | .acquire => holder? = none
  | .dial | .run _ | .release _ | .hangUp => holder? = some i

/-- Who holds the slot after a step. -/
def holderAfter (holder? : Option Nat) (i : Nat) : SessionStep Statement → Option Nat
  | .acquire => some i
  | .release _ => none
  | _ => holder?

/-- `Turn f i q f'`: the caller `i` takes the step `q`, or gives up while he waits for its answer. -/
inductive Turn : Floor → Nat → SessionStep Statement → Floor → Prop where
  | answered {f : Floor} {i : Nat} {q : SessionStep Statement}
      {next : SessionStep.Answer Statement.Result q → Steps (Except Failure Unit)}
      {answer : SessionStep.Answer Statement.Result q} {line : Line}
      (left : f.left i = some (.ask q next)) (permits : Permits f.holder? i q)
      (meets : Meets f.line q answer line) :
      Turn f i q ⟨line, holderAfter f.holder? i q, Function.update f.left i (some (next answer))⟩
  | abandoned {f : Floor} {i : Nat} {q : SessionStep Statement}
      {next : SessionStep.Answer Statement.Result q → Steps (Except Failure Unit)}
      (left : f.left i = some (.ask q next)) (waits : IsWait q)
      (permits : q ≠ .acquire → Permits f.holder? i q) :
      Turn f i q ⟨f.line.abandon q, if f.holder? = some i then none else f.holder?,
        Function.update f.left i none⟩

/-- `Turns f log f'`: callers take the steps of the log, one after the other. -/
inductive Turns : Floor → List (Nat × SessionStep Statement) → Floor → Prop where
  | nil (f : Floor) : Turns f [] f
  | cons {f mid f' : Floor} {i : Nat} {q : SessionStep Statement}
      {log : List (Nat × SessionStep Statement)} (turn : Turn f i q mid) (rest : Turns mid log f') :
      Turns f ((i, q) :: log) f'

/-- Steps that come to such an end on a closed line with an empty slot, and use no client on the way. -/
def TurnedAway {α : Type} (End : α → Prop) : Steps α → Prop
  | .done a => End a
  | .ask .isClosed next => TurnedAway End (next true)
  | .ask .markClosed next => TurnedAway End (next ())
  | .ask .acquire next => TurnedAway End (next false)
  | .ask (.release _) next => TurnedAway End (next ())
  | .ask .dial _ | .ask (.run _) _ | .ask .hangUp _ => False

theorem TurnedAway.mono {α : Type} {End End' : α → Prop} (himp : ∀ a, End a → End' a) {steps : Steps α}
    (h : TurnedAway End steps) : TurnedAway End' steps := by
  induction steps with
  | done a => exact himp a h
  | ask q next ih =>
    cases q with
    | isClosed | markClosed | acquire | release finished => exact ih _ h
    | dial | run q | hangUp => exact h

/-- The steps of a caller, of whose result only its failure is told. -/
def errand (c : Command) : Steps (Except Failure Unit) :=
  (command c).andThen fun result => .done (result.map fun _ => ())

/-- Once the connection is closed, whoever has not looked yet is told so, unless he wants to close it too. -/
theorem turnedAway_errand (c : Command) :
    TurnedAway (fun a => c ≠ .close → a = .error connectionClosed) (errand c) := by
  cases c with
  | close => exact fun h => absurd rfl h
  | find id => exact fun _ => rfl
  | insert draft => exact fun _ => rfl
  | remove id => exact fun _ => rfl
  | sweep => exact fun _ => rfl

/-- A step for which there has to be a client, or a new one. -/
def NeedsClient : SessionStep Statement → Prop
  | .dial | .run _ | .hangUp => True
  | _ => False

/-- The connection is closed, no client is there, and every caller will be turned away. -/
structure Shut (End : Nat → Except Failure Unit → Prop) (f : Floor) : Prop where
  isClosed : f.line.isClosed = true
  empty : f.line.slot = none
  away : ∀ i steps, f.left i = some steps → TurnedAway (End i) steps

variable {End : Nat → Except Failure Unit → Prop} {f f' : Floor}

theorem turnedAway_update {left : Nat → Option (Steps (Except Failure Unit))}
    (h : ∀ j steps, left j = some steps → TurnedAway (End j) steps) {i : Nat}
    {new : Option (Steps (Except Failure Unit))}
    (hnew : ∀ steps, new = some steps → TurnedAway (End i) steps) :
    ∀ j steps, Function.update left i new j = some steps → TurnedAway (End j) steps := by
  intro j
  by_cases hj : j = i
  · subst hj
    rw [Function.update_self]
    exact hnew
  · rw [Function.update_of_ne hj]
    exact h j

/-- What one turn preserves: the answers are those of a closed line with an empty slot. -/
theorem Shut.turn (h : Shut End f) {i : Nat} {q : SessionStep Statement} (turn : Turn f i q f') :
    ¬NeedsClient q ∧ Shut End f' := by
  obtain ⟨line, holder, left⟩ := f
  obtain ⟨slot, dialled, isClosed⟩ := line
  obtain ⟨hclosed, hempty, haway⟩ := h
  obtain rfl : isClosed = true := hclosed
  obtain rfl : slot = none := hempty
  cases turn with
  | answered hleft permits meets =>
    have hnext := haway i _ hleft
    cases meets with
    | isClosed | acquire | markClosed =>
      exact ⟨id, rfl, rfl, turnedAway_update haway (by rintro _ ⟨⟩; exact hnext)⟩
    | release finished =>
      refine ⟨id, rfl, ?_, turnedAway_update haway (by rintro _ ⟨⟩; exact hnext)⟩
      cases finished <;> rfl
    | dialled | undialled | missing | answered | failed | hangUp => exact hnext.elim
  | abandoned hleft waits permits =>
    have hnext := haway i _ hleft
    cases waits with
    | acquire => exact ⟨id, rfl, rfl, turnedAway_update haway (by rintro _ ⟨⟩)⟩
    | dial | run | hangUp => exact hnext.elim

theorem Shut.turns (h : Shut End f) {log : List (Nat × SessionStep Statement)} (turns : Turns f log f') :
    (∀ x ∈ log, ¬NeedsClient x.2) ∧ Shut End f' := by
  induction turns with
  | nil f => exact ⟨by simp, h⟩
  | cons turn rest ih =>
    obtain ⟨hq, hmid⟩ := h.turn turn
    obtain ⟨hlog, hend⟩ := ih hmid
    exact ⟨List.forall_mem_cons.2 ⟨hq, hlog⟩, hend⟩

theorem errand_ne_done (c : Command) (a : Except Failure Unit) : errand c ≠ .done a := by
  cases c <;> exact fun h => nomatch h

/-- Once the connection is closed and the slot is empty, it stays empty and no one needs a client any more, if
each caller is done by then, or has not begun: who looks at the mark from then on is told that the
connection was closed. -/
theorem stays_closed (closed : f.line.isClosed = true) (empty : f.line.slot = none)
    (commands : Nat → Command)
    (unasked : ∀ i steps, f.left i = some steps → steps = errand (commands i) ∨ ∃ a, steps = .done a)
    {log : List (Nat × SessionStep Statement)} (turns : Turns f log f') :
    f'.line.slot = none ∧ (∀ x ∈ log, ¬NeedsClient x.2) ∧
      ∀ i a, f.left i = some (errand (commands i)) → commands i ≠ .close →
        f'.left i = some (.done a) → a = .error connectionClosed := by
  have hshut : Shut (fun i a => f.left i = some (errand (commands i)) → commands i ≠ .close →
      a = .error connectionClosed) f := by
    refine ⟨closed, empty, fun i steps hsteps => ?_⟩
    rcases unasked i steps hsteps with rfl | ⟨a, rfl⟩
    · rw [hsteps]
      exact (turnedAway_errand (commands i)).mono fun a ha _ => ha
    · intro hbegun
      exact absurd (Option.some.inj (hbegun.symm.trans hsteps)) (errand_ne_done (commands i) a)
  obtain ⟨hlog, hend⟩ := hshut.turns turns
  exact ⟨hend.empty, hlog, fun i a hbegun hc ha => hend.away i _ ha hbegun hc⟩

/-- The steps that are left to a caller who looked while the connection was open. -/
def looked? (c : Command) : Option (Steps (Except Failure Unit)) :=
  match errand c with
  | .ask .isClosed next => some (next false)
  | _ => none

/-- Such a caller is not turned away later: from an empty slot that no one holds he can go on to dial, whether
or not the connection was closed meanwhile, and then there is a client in the slot again. -/
theorem exists_dial_of_looked {c : Command} (h : c ≠ .close) {i : Nat} (looked : f.left i = looked? c)
    (free : f.holder? = none) (empty : f.line.slot = none) :
    ∃ f', Turns f [(i, .acquire), (i, .dial)] f' ∧ f'.line = f.line.dial := by
  obtain ⟨next, next', hlooked, hempty⟩ : ∃ next next', looked? c = some (.ask .acquire next) ∧
      next false = .ask .dial next' := by
    cases c with
    | find id => exact ⟨_, _, rfl, rfl⟩
    | insert draft => exact ⟨_, _, rfl, rfl⟩
    | remove id => exact ⟨_, _, rfl, rfl⟩
    | sweep => exact ⟨_, _, rfl, rfl⟩
    | close => exact absurd rfl h
  have hacquire := Turn.answered (looked.trans hlooked) free (.acquire f.line)
  rw [empty, Option.isSome_none] at hacquire
  have hleft : Function.update f.left i (some (next false)) i = some (.ask .dial next') := by
    rw [Function.update_self, hempty]
  have hdial := Turn.answered (f := ⟨f.line, some i, Function.update f.left i (some (next false))⟩)
    hleft rfl (.dialled f.line)
  exact ⟨_, .cons hacquire (.cons hdial (.nil _)), rfl⟩

end BurnAfterRead.ServerTable
