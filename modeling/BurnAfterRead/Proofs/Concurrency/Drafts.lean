import BurnAfterRead.Proofs.Concurrency.Scene
import Mathlib.Data.List.Nodup

/-!
# What calls ask a store to keep

Only creations ask a store to keep something, each of them one draft at most, and that draft seals the
plaintext of the creation. So where no two creations draw the same identifier, no two drafts of a run
have the same one.
-/

namespace BurnAfterRead.Concurrency

open Dialogue Service

/-- The draft that a call asks the store to keep. -/
def Event.draft? : Event → Option Draft
  | served _ _ (.insert draft) _ | failed _ (.insert draft) _ => some draft
  | _ => none

/-- All drafts that the store was asked to keep. -/
def drafts (trace : List Event) : List Draft := trace.filterMap Event.draft?

theorem drafts_append (a b : List Event) : drafts (a ++ b) = drafts a ++ drafts b :=
  List.filterMap_append

theorem mem_drafts_append_left {a : List Event} {d : Draft} (h : d ∈ drafts a) (b : List Event) :
    d ∈ drafts (a ++ b) := by
  rw [drafts_append]
  exact List.mem_append_left _ h

theorem drafts_snoc (trace : List Event) (e : Event) :
    drafts (trace ++ [e]) = drafts trace ++ e.draft?.toList := by
  rw [drafts_append]
  unfold drafts
  cases h : e.draft? <;> simp [h]

theorem mem_drafts_snoc {trace : List Event} {e : Event} {d : Draft} :
    d ∈ drafts (trace ++ [e]) ↔ d ∈ drafts trace ∨ e.draft? = some d := by
  rw [drafts_snoc, List.mem_append, Option.mem_toList]

theorem countP_filterMap_le {α β γ : Type} {f : α → Option β} {g : α → Option γ} {p : β → Bool}
    {l : List α} (h : ∀ a ∈ l, ∀ b, f a = some b → p b = true → (g a).isSome = true) :
    (l.filterMap f).countP p ≤ (l.filterMap g).length := by
  induction l with
  | nil => simp
  | cons a l ih =>
    have ih := ih fun a' ha' => h a' (List.mem_cons_of_mem a ha')
    have hhead := h a List.mem_cons_self
    rw [List.filterMap_cons, List.filterMap_cons]
    cases hf : f a with
    | none => cases g a <;> simp only [List.length_cons] <;> omega
    | some b =>
      rw [List.countP_cons]
      split
      · rename_i hp
        obtain ⟨c, hc⟩ := Option.isSome_iff_exists.1 (hhead b hf hp)
        rw [hc]
        exact Nat.succ_le_succ ih
      · cases g a <;> simp only [List.length_cons] <;> omega

theorem exists_exchange_of_draft {e : Event} {d : Draft} (h : e.draft? = some d) :
    ∃ i a, e.exchange? i = some ⟨.store (.insert d), a⟩ := by
  cases e with
  | started | read | settled => cases h
  | served i now c reply =>
    cases c with
    | insert draft =>
      obtain rfl := Option.some.inj h
      exact ⟨i, reply, if_pos rfl⟩
    | find | remove | sweep | close => cases h
  | failed i c f =>
    cases c with
    | insert draft =>
      obtain rfl := Option.some.inj h
      exact ⟨i, _, if_pos rfl⟩
    | find | remove | sweep | close => cases h

namespace Scene

variable {σ : Type} {store : Store σ} {s : Service} {st : σ} {w : Scene σ} {trace : List Event}

/-- Every creation of the scene has an identifier of its own. -/
def Fresh (identifier : BitVec 128 → String) (w : Scene σ) : Prop :=
  ∀ (i j : Nat) (chance chance' : Chance) (wanted wanted' : Secret) (rest rest' : Call Outcome),
    w.courses[i]? = some ⟨.create chance wanted, rest⟩ →
    w.courses[j]? = some ⟨.create chance' wanted', rest'⟩ →
    identifier chance.random = identifier chance'.random → i = j

theorem fresh_of_creator {identifier : BitVec 128 → String} {k : Nat}
    (h : ∀ (i : Nat) (chance : Chance) (wanted : Secret) (rest : Call Outcome),
      w.courses[i]? = some ⟨.create chance wanted, rest⟩ → i = k) : w.Fresh identifier :=
  fun i j _ _ _ _ _ _ hi hj _ => (h i _ _ _ hi).trans (h j _ _ _ hj).symm

namespace Run

/-- What a call asked to be kept is the draft of a creation. -/
theorem drafted (run : Run store s (quiet st) trace w) {i : Nat} {d : Draft}
    (h : d ∈ (exchanges i trace).filterMap draftOf) :
    ∃ chance wanted rest, w.courses[i]? = some ⟨.create chance wanted, rest⟩ ∧
      Drafted s chance wanted d := by
  obtain ⟨x, hx, -⟩ := List.mem_filterMap.1 h
  obtain ⟨e, he, hxe⟩ := List.mem_filterMap.1 hx
  obtain ⟨⟨op, rest⟩, hc⟩ := run.exists_course he hxe
  rcases Operation.drafts_of_path (run.path hc) with hnil | ⟨chance, wanted, d', rfl, drafted, hone⟩
  · rw [hnil] at h
    cases h
  · rw [hone] at h
    rw [List.mem_singleton.1 h]
    exact ⟨chance, wanted, rest, hc, drafted⟩

/-- Whatever the store was asked to keep is the draft of a creation of the run. -/
theorem creation (run : Run store s (quiet st) trace w) {e : Event} (he : e ∈ trace) {d : Draft}
    (hd : e.draft? = some d) :
    ∃ i chance wanted rest, w.courses[i]? = some ⟨.create chance wanted, rest⟩ ∧
      Drafted s chance wanted d ∧ (e.exchange? i).bind draftOf = some d := by
  obtain ⟨i, a, hx⟩ := exists_exchange_of_draft hd
  have hmem : d ∈ (exchanges i trace).filterMap draftOf :=
    List.mem_filterMap.2 ⟨_, List.mem_filterMap.2 ⟨e, he, hx⟩, rfl⟩
  obtain ⟨chance, wanted, rest, hc, drafted⟩ := run.drafted hmem
  exact ⟨i, chance, wanted, rest, hc, drafted, by rw [hx]; rfl⟩

theorem length_drafts_le (run : Run store s (quiet st) trace w) (i : Nat) :
    ((exchanges i trace).filterMap draftOf).length ≤ 1 := by
  cases hc : w.courses[i]? with
  | none => simp [(run.path_or_idle i).2 hc]
  | some c =>
    rcases Operation.drafts_of_path (run.path hc) with h | ⟨_, _, _, _, _, h⟩ <;> simp [h]

variable {identifier : BitVec 128 → String}

/-- Under a fresh identifier, at most one draft is ever asked to be kept. -/
theorem countP_drafts_le_one (run : Run store s (quiet st) trace w) (fresh : w.Fresh identifier)
    (x : String) : (drafts trace).countP (fun d => identifier d.random == x) ≤ 1 := by
  by_cases hx : ∃ d ∈ drafts trace, identifier d.random = x
  · obtain ⟨d, hd, hid⟩ := hx
    obtain ⟨e, he, hed⟩ := List.mem_filterMap.1 hd
    obtain ⟨k, chance, wanted, rest, hk, drafted, -⟩ := run.creation he hed
    -- Every other request under `x` comes from the same call.
    have hsome : ∀ e ∈ trace, ∀ d, e.draft? = some d → (identifier d.random == x) = true →
        ((e.exchange? k).bind draftOf).isSome = true := by
      intro e' he' d' hd' hid'
      obtain ⟨j, chance', wanted', rest', hj, drafted', hbind⟩ := run.creation he' hd'
      have hsame : identifier chance'.random = identifier chance.random := by
        rw [← drafted'.random, ← drafted.random, hid]
        exact beq_iff_eq.1 hid'
      obtain rfl := fresh _ _ _ _ _ _ _ _ hj hk hsame
      rw [hbind]
      rfl
    refine Nat.le_trans (countP_filterMap_le hsome) ?_
    have hlen := run.length_drafts_le k
    rw [exchanges, List.filterMap_filterMap] at hlen
    exact hlen
  · rw [List.countP_eq_zero.2]
    · exact Nat.zero_le 1
    · intro d hd hid
      exact hx ⟨d, hd, beq_iff_eq.1 hid⟩

/-- No two drafts have one identifier. -/
theorem nodup_drafts (run : Run store s (quiet st) trace w) (fresh : w.Fresh identifier) :
    ((drafts trace).map fun d => identifier d.random).Nodup := by
  rw [List.nodup_iff_count_le_one]
  intro x
  rw [List.count, List.countP_map]
  exact run.countP_drafts_le_one fresh x

end Run

end Scene

end BurnAfterRead.Concurrency
