/-!
# Dialogues

A course of action that asks questions and goes on with their answers. What a question costs, when
it is answered and by whom is left to the one who runs the dialogue, so the same dialogue can be run
against a store, between other dialogues, or with failures put into it.
-/

namespace BurnAfterRead

/-- A course of action with result `α`; a question `q` is answered by an element of `A q`. -/
inductive Dialogue (Q : Type) (A : Q → Type) (α : Type) where
  | done (result : α)
  | ask (q : Q) (next : A q → Dialogue Q A α)

namespace Dialogue

variable {Q : Type} {A : Q → Type} {α β : Type}

/-- Goes on after a dialogue with its result. -/
def andThen (f : α → Dialogue Q A β) : Dialogue Q A α → Dialogue Q A β
  | done result => f result
  | ask q next => ask q fun answer => andThen f (next answer)

instance : Monad (Dialogue Q A) where
  pure := done
  bind d f := d.andThen f

/-- A single question. -/
def question (q : Q) : Dialogue Q A (A q) := ask q done

/-- Runs a dialogue with a partner that answers in a state of its own. -/
def run {σ : Type} (answer : (q : Q) → σ → A q × σ) : Dialogue Q A α → σ → α × σ
  | done result, s => (result, s)
  | ask q next, s => run answer (next (answer q s).1) (answer q s).2

/-- Runs a dialogue with a partner who may leave a question without an answer, which ends it. -/
def attempt {σ : Type} (answer : (q : Q) → σ → Option (A q) × σ) :
    Dialogue Q A α → σ → Option α × σ
  | done result, s => (some result, s)
  | ask q next, s =>
    match answer q s with
    | (some a, s) => attempt answer (next a) s
    | (none, s) => (none, s)

/-- Runs a dialogue with a partner who answers within a monad. -/
def runIn {m : Type → Type} [Monad m] (answer : (q : Q) → m (A q)) : Dialogue Q A α → m α
  | done result => pure result
  | ask q next => do runIn answer (next (← answer q))

/-- Replaces every question by a dialogue that finds its answer. -/
def refine {R : Type} {B : R → Type} (detail : (q : Q) → Dialogue R B (A q)) :
    Dialogue Q A α → Dialogue R B α
  | done result => done result
  | ask q next => (detail q).andThen fun answer => refine detail (next answer)

theorem andThen_done (d : Dialogue Q A α) : d.andThen done = d := by
  induction d with
  | done result => rfl
  | ask q next ih => simp [andThen, ih]

theorem andThen_assoc {γ : Type} (d : Dialogue Q A α) (f : α → Dialogue Q A β)
    (g : β → Dialogue Q A γ) : (d.andThen f).andThen g = d.andThen fun a => (f a).andThen g := by
  induction d with
  | done result => rfl
  | ask q next ih => simp [andThen, ih]

theorem run_andThen {σ : Type} (answer : (q : Q) → σ → A q × σ) (d : Dialogue Q A α)
    (f : α → Dialogue Q A β) (s : σ) :
    (d.andThen f).run answer s = (f (d.run answer s).1).run answer (d.run answer s).2 := by
  induction d generalizing s with
  | done result => rfl
  | ask q next ih => simp [andThen, run, ih]

/-- A refined dialogue runs as the dialogue does with a partner who runs the details. -/
theorem run_refine {R σ : Type} {B : R → Type} (detail : (q : Q) → Dialogue R B (A q))
    (answer : (r : R) → σ → B r × σ) (d : Dialogue Q A α) (s : σ) :
    (d.refine detail).run answer s = d.run (fun q s => (detail q).run answer s) s := by
  induction d generalizing s with
  | done result => rfl
  | ask q next ih => simp [refine, run, run_andThen, ih]

end Dialogue

end BurnAfterRead
