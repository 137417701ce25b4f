import BurnAfterRead.Proofs.Time.Millis
import BurnAfterRead.Proofs.Time.TextOrder
import BurnAfterRead.Store.Command
import Mathlib.Tactic.ByContra

/-!
# Stores whose entries can only be missed while they live

Some stores keep what they were given until it is removed or swept, each record in an entry of the
store's own form. `Shelving` is what they have in common for times that a clock shows: a sweep takes
only entries whose records have expired. What two states of such a store have to do with each other,
if one was swept and the other was not, is told by `Thinned`.
-/

namespace BurnAfterRead

/-- A time that a clock shows. Clocks know nothing of leap seconds, and only of the years 0 to 9999. -/
structure Instant.OnClock (t : Instant) : Prop where
  nanos : t.nanos < 1000000000
  year : 0 ≤ t.year ∧ t.year ≤ 9999

instance (t : Instant) : Decidable t.OnClock :=
  decidable_of_iff (t.nanos < 1000000000 ∧ 0 ≤ t.year ∧ t.year ≤ 9999)
    ⟨fun ⟨nanos, year⟩ => ⟨nanos, year⟩, fun h => ⟨h.nanos, h.year⟩⟩

/-- From a time that a clock shows, lifetimes lead to times that exist. -/
theorem Instant.OnClock.wellFormed_of_plus? {t u : Instant} (h : t.OnClock) {span : Span}
    (hplus : t.plus? span = some u) : u.WellFormed := by
  have hleap : t.isLeapSecond = false := decide_eq_false (Nat.not_le.2 h.nanos)
  unfold plus? at hplus
  dsimp only at hplus
  split at hplus
  · rename_i hrange
    obtain rfl := Option.some.inj hplus
    have hnanos : (t.plus span).nanos < 1000000000 := by
      unfold plus ofNanos
      rw [hleap]
      dsimp only
      rw [if_neg Bool.false_ne_true]
      dsimp only
      omega
    exact ⟨hrange, by omega, fun hlate => absurd hnanos (Nat.not_lt.2 hlate)⟩
  · cases hplus

/-- The clock ends long before the times do. -/
theorem Instant.OnClock.seconds_le {t : Instant} (h : t.OnClock) : t.seconds ≤ maxSeconds := by
  by_contra hlate
  have hmono : Calendar.yearOfDay (maxSeconds / 86400) ≤ t.year :=
    Calendar.yearOfDay_mono (show maxSeconds / 86400 ≤ t.seconds / 86400 by unfold maxSeconds at *; omega)
  have hlast : Calendar.yearOfDay (maxSeconds / 86400) = 262142 := by decide
  have hyear := h.year.2
  omega

/-- Some elements of a list are left out, and all of those had gone. -/
structure Thinned {ε : Type} (gone : ε → Prop) (full thin : List ε) : Prop where
  sublist : thin.Sublist full
  kept : ∀ e ∈ full, ¬gone e → e ∈ thin

namespace Thinned

variable {ε : Type} {gone gone' : ε → Prop} {full thin : List ε}

theorem refl (gone : ε → Prop) (l : List ε) : Thinned gone l l := ⟨.refl l, fun _ h _ => h⟩

theorem mono (h : Thinned gone full thin) (himp : ∀ e, gone e → gone' e) : Thinned gone' full thin :=
  ⟨h.sublist, fun e he hlive => h.kept e he fun hgone => hlive (himp e hgone)⟩

theorem append (h : Thinned gone full thin) (l : List ε) : Thinned gone (full ++ l) (thin ++ l) := by
  refine ⟨h.sublist.append_right l, fun e he hlive => ?_⟩
  rcases List.mem_append.1 he with he | he
  · exact List.mem_append_left _ (h.kept e he hlive)
  · exact List.mem_append_right _ he

theorem filter (h : Thinned gone full thin) (p : ε → Bool) :
    Thinned gone (full.filter p) (thin.filter p) := by
  refine ⟨h.sublist.filter p, fun e he hlive => ?_⟩
  obtain ⟨he, hp⟩ := List.mem_filter.1 he
  exact List.mem_filter.2 ⟨h.kept e he hlive, hp⟩

/-- Leaving out more of what has gone. -/
theorem drop (h : Thinned gone full thin) {p : ε → Bool}
    (hp : ∀ e ∈ thin, p e = false → gone e) : Thinned gone full (thin.filter p) := by
  refine ⟨List.filter_sublist.trans h.sublist, fun e he hlive => ?_⟩
  have hthin := h.kept e he hlive
  refine List.mem_filter.2 ⟨hthin, ?_⟩
  cases hpe : p e with
  | true => rfl
  | false => exact absurd (hp e hthin hpe) hlive

/-- Where one element at most is looked for, both lists have it, or one has it no longer. -/
theorem find? (h : Thinned gone full thin) {p : ε → Bool}
    (unique : ∀ a ∈ full, ∀ b ∈ full, p a = true → p b = true → a = b) :
    thin.find? p = full.find? p ∨
      thin.find? p = none ∧ ∃ e, full.find? p = some e ∧ gone e := by
  cases hthin : thin.find? p with
  | some e =>
    have he := h.sublist.subset (List.mem_of_find?_eq_some hthin)
    cases hfull : full.find? p with
    | none => exact absurd (List.find?_some hthin) (List.find?_eq_none.1 hfull e he)
    | some e' =>
      have he' := List.mem_of_find?_eq_some hfull
      exact Or.inl (congrArg some
        (unique e he e' he' (List.find?_some hthin) (List.find?_some hfull)))
  | none =>
    cases hfull : full.find? p with
    | none => exact Or.inl rfl
    | some e =>
      refine Or.inr ⟨rfl, e, rfl, ?_⟩
      by_contra hlive
      have he := h.kept e (List.mem_of_find?_eq_some hfull) hlive
      exact List.find?_eq_none.1 hthin e he (List.find?_some hfull)

end Thinned

/-- How the states of a store keep lists of entries, each of which is read as a record. New entries
come last. `Admits` tells the expiries that the store can cope with. -/
structure Shelving {σ : Type} (store : Store σ) (empty : σ) (identifier : BitVec 128 → String)
    (Admits : Instant → Prop) (ε : Type) where
  Keeps : σ → List ε → Prop
  /-- Whether an entry goes by an identifier. -/
  names : String → ε → Bool
  read : ε → Except Failure Record
  /-- The entry that is made of a draft. -/
  shelve : Draft → ε
  /-- Whether a sweep takes an entry. -/
  sweeps : Instant → ε → Bool
  keeps_empty : Keeps empty []
  names_shelve : ∀ random draft, names (identifier random) (shelve draft) = true →
    identifier random = identifier draft.random
  unique : ∀ {st es id}, Keeps st es →
    ∀ a ∈ es, ∀ b ∈ es, names id a = true → names id b = true → a = b
  find : ∀ {st es}, Keeps st es → ∀ now id, store now (.find id) st =
    (((es.find? (names id)).map read).getD (.error .secretNotFound), st)
  insert : ∀ {st es}, Keeps st es → ∀ draft : Draft, draft.expiresAt.WellFormed →
    Admits draft.expiresAt → (∀ e ∈ es, names (identifier draft.random) e = false) → ∀ now,
    ∃ st', Keeps st' (es ++ [shelve draft]) ∧
      store now (.insert draft) st = (read (shelve draft), st')
  remove : ∀ {st es}, Keeps st es → ∀ now id,
    ∃ st', Keeps st' (es.filter fun e => !names id e) ∧
      store now (.remove id) st = (removedOne (es.countP (names id)), st')
  sweep : ∀ {st es now}, Keeps st es → now.OnClock →
    Keeps (store now .sweep st).2 (es.filter fun e => !sweeps now e)
  expired_of_sweeps : ∀ {st es now}, Keeps st es → now.OnClock → ∀ e ∈ es, sweeps now e = true →
    ∃ r, read e = .ok r ∧ r.isExpired now = true

namespace Shelving

variable {σ ε : Type} {store : Store σ} {empty : σ} {identifier : BitVec 128 → String}
  {Admits : Instant → Prop}

/-- The record of an entry has expired. -/
def Gone (K : Shelving store empty identifier Admits ε) (now : Instant) (e : ε) : Prop :=
  ∃ r, K.read e = .ok r ∧ r.isExpired now = true

theorem Gone.later {K : Shelving store empty identifier Admits ε} {now now' : Instant} {e : ε}
    (h : K.Gone now e) (hle : now.notAfter now' = true) : K.Gone now' e := by
  obtain ⟨r, hread, hexpired⟩ := h
  exact ⟨r, hread, Instant.notAfter_trans hexpired hle⟩

/-- A state keeps some entries, and another one keeps them less those that have expired. -/
structure Trails (K : Shelving store empty identifier Admits ε) (now : Instant) (es : List ε)
    (full thin : σ) : Prop where
  keeps : K.Keeps full es
  thinned : ∃ es', K.Keeps thin es' ∧ Thinned (K.Gone now) es es'

namespace Trails

variable {K : Shelving store empty identifier Admits ε} {now : Instant} {es : List ε} {full thin : σ}

theorem later (h : K.Trails now es full thin) {now' : Instant} (hle : now.notAfter now' = true) :
    K.Trails now' es full thin := by
  obtain ⟨hfull, es', hthin, hthinned⟩ := h
  exact ⟨hfull, es', hthin, hthinned.mono fun e hgone => hgone.later hle⟩

/-- The second state may be swept. -/
theorem sweep (h : K.Trails now es full thin) (hnow : now.OnClock) :
    K.Trails now es full (store now .sweep thin).2 := by
  obtain ⟨hfull, es', hthin, hthinned⟩ := h
  refine ⟨hfull, _, K.sweep hthin hnow, hthinned.drop fun e he hswept => ?_⟩
  exact K.expired_of_sweeps hthin hnow e he (by simpa using hswept)

end Trails

end Shelving

end BurnAfterRead
