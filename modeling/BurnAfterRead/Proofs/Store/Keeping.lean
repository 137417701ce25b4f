import BurnAfterRead.Proofs.Time.Millis
import BurnAfterRead.Store.Command
import Mathlib.Data.List.Forall2
import Mathlib.Data.List.Nodup

/-!
# Stores as lists of records

Stores keep records in forms of their own, but all of them keep a list of records, and answer from it.
Some lose records by themselves, as they are free to do once a record has expired. `Keeping` is what
they have in common, for records that expire at whole milliseconds.
-/

namespace BurnAfterRead

/-- What a list of records answers to a lookup. -/
def answerFind (rs : List Record) (id : String) : Except Failure Record :=
  match rs.find? (·.id == id) with
  | some r => .ok r
  | none => .error .secretNotFound

/-- Some records of a list are lost at a time, and all of those had expired. -/
structure Lapse (now : Instant) (before after : List Record) : Prop where
  sublist : after.Sublist before
  kept : ∀ r ∈ before, r.isExpired now = false → r ∈ after

namespace Lapse

variable {now : Instant} {rs rs' : List Record}

theorem refl (now : Instant) (rs : List Record) : Lapse now rs rs := ⟨.refl rs, fun _ h _ => h⟩

theorem cons (h : Lapse now rs rs') (r : Record) : Lapse now (r :: rs) (r :: rs') := by
  refine ⟨h.sublist.cons_cons r, fun x hx hlive => ?_⟩
  rcases List.mem_cons.1 hx with rfl | hx
  · exact List.mem_cons_self
  · exact List.mem_cons_of_mem _ (h.kept x hx hlive)

theorem drop (h : Lapse now rs rs') {r : Record} (hr : r.isExpired now = true) :
    Lapse now (r :: rs) rs' := by
  refine ⟨h.sublist.cons r, fun x hx hlive => ?_⟩
  rcases List.mem_cons.1 hx with rfl | hx
  · rw [hr] at hlive
    cases hlive
  · exact h.kept x hx hlive

end Lapse

/-- A draft that can be kept to the millisecond. -/
structure Draft.Lasting (draft : Draft) : Prop where
  inRange : draft.expiresAt.inRange = true
  whole : draft.expiresAt.WholeMillis

/-- How the states of a store keep lists of records, each under the identifier of its random bits. A
lookup or a removal is of an identifier that such a record can have, or of none. -/
structure Keeping {σ : Type} (store : Store σ) (empty : σ) (identifier : BitVec 128 → String) where
  Keeps : σ → List Record → Prop
  identifier_ne : ∀ random, identifier random ≠ ""
  keeps_empty : Keeps empty []
  find : ∀ {st rs now id}, Keeps st rs → now.WholeMillis →
    (id = "" ∨ ∃ random, id = identifier random) →
    ∃ st' rs', Lapse now rs rs' ∧ Keeps st' rs' ∧
      store now (.find id) st = (answerFind rs' id, st')
  insert : ∀ {st rs now} (draft : Draft), Keeps st rs → now.WholeMillis → draft.Lasting →
    (∀ r ∈ rs, r.id ≠ identifier draft.random) →
    ∃ st' rs', Lapse now rs rs' ∧
      Keeps st' (rs' ++ [⟨identifier draft.random, draft.value, draft.expiresAt⟩]) ∧
      store now (.insert draft) st =
        (.ok (⟨identifier draft.random, draft.value, draft.expiresAt⟩ : Record), st')
  remove : ∀ {st rs now id}, Keeps st rs → now.WholeMillis →
    (id = "" ∨ ∃ random, id = identifier random) →
    ∃ st' rs', Lapse now rs rs' ∧ Keeps st' (rs'.filter (·.id != id)) ∧
      store now (.remove id) st = (removedOne (rs'.countP (·.id == id)), st')

/-- The number of elements that a filter takes away. -/
theorem length_sub_length_filter {α : Type} (l : List α) (p : α → Bool) :
    l.length - (l.filter fun a => !p a).length = l.countP p := by
  have h := List.length_eq_countP_add_countP (l := l) p
  have e : l.countP (fun a => decide ¬p a = true) = l.countP fun a => !p a :=
    List.countP_congr fun a _ => by simp
  rw [← List.countP_eq_length_filter, h, e]
  omega

/-- What was found first is found first among what a filter leaves, if it leaves it. -/
theorem find?_filter_of_find? {α : Type} {l : List α} {p q : α → Bool} {a : α}
    (h : l.find? p = some a) (hq : q a = true) : (l.filter q).find? p = some a := by
  obtain ⟨hp, front, back, rfl, hfront⟩ := List.find?_eq_some_iff_append.1 h
  rw [List.filter_append, List.filter_cons_of_pos hq]
  exact List.find?_eq_some_iff_append.2 ⟨hp, front.filter q, back.filter q, rfl,
    fun x hx => hfront x (List.mem_filter.1 hx).1⟩

/-- What is added last is found where nothing before it is. -/
theorem find?_concat {α : Type} {l : List α} {p : α → Bool} {a : α} (h : l.find? p = none)
    (ha : p a = true) : (l ++ [a]).find? p = some a := by
  rw [List.find?_append, h, Option.none_or]
  exact List.find?_cons_of_pos ha

theorem nodup_map_concat {α β : Type} {f : α → β} {l : List α} {a : α} (nodup : (l.map f).Nodup)
    (hfresh : ∀ x ∈ l, f x ≠ f a) : ((l ++ [a]).map f).Nodup := by
  rw [List.map_append, List.nodup_append]
  refine ⟨nodup, List.nodup_singleton _, fun b hb c hc => ?_⟩
  obtain ⟨x, hx, rfl⟩ := List.mem_map.1 hb
  obtain rfl := List.mem_singleton.1 hc
  exact hfresh x hx

section Forall₂

variable {α : Type} {R : α → Record → Prop} {l : List α} {rs : List Record} {p : α → Bool}
  {q : Record → Bool}

/-- Looking for what is kept in another form. -/
theorem find?_of_forall₂ (h : List.Forall₂ R l rs) (hpq : ∀ a r, R a r → p a = q r) :
    Option.Rel R (l.find? p) (rs.find? q) := by
  induction h with
  | nil => exact .none
  | @cons a r l rs har _ ih =>
    rw [List.find?_cons, List.find?_cons, hpq a r har]
    cases q r with
    | true => exact .some har
    | false => exact ih

theorem exists_of_forall₂ (h : List.Forall₂ R l rs) {r : Record} (hr : r ∈ rs) : ∃ a ∈ l, R a r := by
  induction h with
  | nil => cases hr
  | @cons a x l rs hax _ ih =>
    rcases List.mem_cons.1 hr with rfl | hr
    · exact ⟨a, List.mem_cons_self, hax⟩
    · obtain ⟨b, hb, hbr⟩ := ih hr
      exact ⟨b, List.mem_cons_of_mem _ hb, hbr⟩

theorem filter_of_forall₂ (h : List.Forall₂ R l rs) (hpq : ∀ a r, R a r → p a = q r) :
    List.Forall₂ R (l.filter p) (rs.filter q) := by
  induction h with
  | nil => exact .nil
  | @cons a r l rs har _ ih =>
    rw [List.filter_cons, List.filter_cons, hpq a r har]
    cases q r with
    | true => exact .cons har ih
    | false => exact ih

theorem countP_of_forall₂ (h : List.Forall₂ R l rs) (hpq : ∀ a r, R a r → p a = q r) :
    l.countP p = rs.countP q := by
  rw [List.countP_eq_length_filter, List.countP_eq_length_filter]
  exact (filter_of_forall₂ h hpq).length_eq

end Forall₂

end BurnAfterRead
