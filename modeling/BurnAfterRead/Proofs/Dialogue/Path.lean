import BurnAfterRead.Dialogue

/-!
# Paths through dialogues

What one who leads a dialogue can tell of it afterwards: the questions that were asked so far, each
with its answer, and the part of the dialogue that is left. Who answered, and what else happened in
between, does not show in a path. So a fact about all paths of a dialogue holds wherever the dialogue
is led, also between the steps of others.
-/

namespace BurnAfterRead.Dialogue

variable {Q : Type} {A : Q → Type} {α β : Type}

/-- A question with its answer. -/
abbrev Exchange (A : Q → Type) : Type := (q : Q) × A q

/-- `Path d l e`: after the exchanges `l`, what is left of `d` is `e`. -/
inductive Path : Dialogue Q A α → List (Exchange A) → Dialogue Q A α → Prop where
  | nil (d : Dialogue Q A α) : Path d [] d
  | cons {q : Q} {next : A q → Dialogue Q A α} {a : A q} {l : List (Exchange A)}
      {e : Dialogue Q A α} : Path (next a) l e → Path (.ask q next) (⟨q, a⟩ :: l) e

theorem path_done_iff {o : α} {l : List (Exchange A)} {e : Dialogue Q A α} :
    Path (.done o) l e ↔ l = [] ∧ e = .done o := by
  constructor
  · intro h
    cases h with
    | nil => exact ⟨rfl, rfl⟩
  · rintro ⟨rfl, rfl⟩
    exact .nil _

theorem path_ask_iff {q : Q} {next : A q → Dialogue Q A α} {l : List (Exchange A)}
    {e : Dialogue Q A α} :
    Path (.ask q next) l e ↔
      (l = [] ∧ e = .ask q next) ∨ ∃ a rest, l = ⟨q, a⟩ :: rest ∧ Path (next a) rest e := by
  constructor
  · intro h
    cases h with
    | nil => exact Or.inl ⟨rfl, rfl⟩
    | cons h => exact Or.inr ⟨_, _, rfl, h⟩
  · rintro (⟨rfl, rfl⟩ | ⟨a, rest, rfl, h⟩)
    · exact .nil _
    · exact .cons h

/-- A path of a dialogue that has come to its end begins with an answer to its first question. -/
theorem path_ask_done_iff {q : Q} {next : A q → Dialogue Q A α} {l : List (Exchange A)} {o : α} :
    Path (.ask q next) l (.done o) ↔ ∃ a rest, l = ⟨q, a⟩ :: rest ∧ Path (next a) rest (.done o) := by
  rw [path_ask_iff]
  constructor
  · rintro (⟨-, h⟩ | h)
    · cases h
    · exact h
  · exact Or.inr

namespace Path

theorem append {d e e' : Dialogue Q A α} {l l' : List (Exchange A)} (h : Path d l e)
    (h' : Path e l' e') : Path d (l ++ l') e' := by
  induction h with
  | nil => exact h'
  | cons _ ih => exact .cons (ih h')

theorem snoc {d : Dialogue Q A α} {l : List (Exchange A)} {q : Q} {next : A q → Dialogue Q A α}
    (h : Path d l (.ask q next)) (a : A q) : Path d (l ++ [⟨q, a⟩]) (next a) :=
  h.append (.cons (.nil _))

/-- The exchanges determine what is left. -/
theorem unique {d e e' : Dialogue Q A α} {l : List (Exchange A)} (h : Path d l e)
    (h' : Path d l e') : e = e' := by
  induction h with
  | nil => cases h' with | nil => rfl
  | cons _ ih => cases h' with | cons h' => exact ih h'

/-- Every path goes on to the end if every question can be answered. -/
theorem exists_end [∀ q, Nonempty (A q)] {d e : Dialogue Q A α} {l : List (Exchange A)}
    (h : Path d l e) : ∃ l' o, Path d (l ++ l') (.done o) := by
  suffices ∃ l' o, Path e l' (.done o) by
    obtain ⟨l', o, h'⟩ := this
    exact ⟨l', o, h.append h'⟩
  clear h
  induction e with
  | done o => exact ⟨[], o, .nil _⟩
  | ask q next ih =>
    obtain ⟨a⟩ := (inferInstance : Nonempty (A q))
    obtain ⟨l', o, h'⟩ := ih a
    exact ⟨⟨q, a⟩ :: l', o, .cons h'⟩

end Path

theorem path_andThen_done_iff {d : Dialogue Q A α} {f : α → Dialogue Q A β}
    {l : List (Exchange A)} {o : β} :
    Path (d.andThen f) l (.done o) ↔
      ∃ l₁ a l₂, l = l₁ ++ l₂ ∧ Path d l₁ (.done a) ∧ Path (f a) l₂ (.done o) := by
  induction d generalizing l with
  | done a =>
    constructor
    · intro h
      exact ⟨[], a, l, rfl, .nil _, h⟩
    · rintro ⟨l₁, b, l₂, rfl, h, h'⟩
      obtain ⟨rfl, hb⟩ := path_done_iff.1 h
      cases hb
      exact h'
  | ask q next ih =>
    simp only [andThen]
    rw [path_ask_done_iff]
    constructor
    · rintro ⟨a, rest, rfl, h⟩
      obtain ⟨l₁, b, l₂, rfl, h₁, h₂⟩ := (ih a).1 h
      exact ⟨⟨q, a⟩ :: l₁, b, l₂, rfl, .cons h₁, h₂⟩
    · rintro ⟨l₁, b, l₂, rfl, h₁, h₂⟩
      obtain ⟨a, rest, rfl, hnext⟩ := path_ask_done_iff.1 h₁
      exact ⟨a, rest ++ l₂, rfl, (ih a).2 ⟨rest, b, l₂, rfl, hnext, h₂⟩⟩

/-- A dialogue that only renames its result takes the same path. -/
theorem path_rename_iff {d : Dialogue Q A α} {f : α → β} {l : List (Exchange A)} {o : β} :
    Path (d.andThen fun a => .done (f a)) l (.done o) ↔ ∃ a, o = f a ∧ Path d l (.done a) := by
  rw [path_andThen_done_iff]
  constructor
  · rintro ⟨l₁, a, l₂, rfl, h, h'⟩
    obtain ⟨rfl, ho⟩ := path_done_iff.1 h'
    cases ho
    exact ⟨a, rfl, by rwa [List.append_nil]⟩
  · rintro ⟨a, rfl, h⟩
    exact ⟨l, a, [], (List.append_nil l).symm, h, .nil _⟩

end BurnAfterRead.Dialogue
