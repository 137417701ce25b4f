import BurnAfterRead.Proofs.Concurrency.Drafts
import BurnAfterRead.Proofs.Store.Memory

/-!
# Records are neither copied nor lost track of

For each identifier, a run is kept account of: removals that the store has acknowledged, records that
it holds, and commands adrift that would store one more. Together they never exceed the requests to
store a record under the identifier. No assumption is needed for that; where identifiers are fresh,
there is only one such request, so at most one removal is ever acknowledged.
-/

namespace BurnAfterRead

namespace Command

/-- The command would store a record under `x`. -/
def stores (x : String) : Command → Bool
  | insert draft => draft.identifier == x
  | _ => false

/-- The reply acknowledges that a record under `x` was removed. -/
def removes (x : String) : (c : Command) → c.Reply → Bool
  | remove id, .ok _ => id == x
  | _, _ => false

end Command

namespace Memory

/-- No command adds to the account of an identifier unless it is the request for a record there. -/
theorem account_store (m : Memory) (now : Instant) (c : Command) (x : String) :
    (c.removes x (store now c m).1).toNat + (store now c m).2.count x ≤
      m.count x + (c.stores x).toNat := by
  cases c with
  | find id =>
    simp only [store]
    split <;> simp [Command.removes]
  | insert draft =>
    simp only [store, Command.removes, count_insert, Command.stores, Draft.identifier, Draft.record]
    split <;> simp_all
  | remove id =>
    have hreply := store_remove m now id
    have hcount := count_pos_iff m id
    change (Command.removes x (.remove id) (store now (.remove id) m).1).toNat +
      (m.erase id).count x ≤ m.count x + 0
    rw [hreply, count_erase]
    by_cases hid : id = x
    · subst hid
      cases hfind : m.find? id with
      | none => simp [Command.removes]
      | some r => simpa [Command.removes, Nat.succ_le_iff] using hcount.2 ⟨r, hfind⟩
    · rw [if_neg hid]
      have hne : (id == x) = false := by simpa using hid
      split <;> simp [Command.removes, hne]
  | sweep => simpa [store, Command.removes, Command.stores] using count_live_le m now x
  | close => simp [store, Command.removes, Command.stores]

end Memory

namespace Concurrency

open Dialogue Service

namespace Event

/-- The store acknowledges the removal of a record under `x`. -/
def removes (x : String) : Event → Bool
  | served _ _ c reply => c.removes x reply
  | _ => false

end Event

/-- How often the store was asked to keep a record under an identifier. -/
def requests (trace : List Event) (x : String) : Nat := (drafts trace).countP (·.identifier == x)

/-- How often the store has acknowledged the removal of a record under an identifier. -/
def removals (trace : List Event) (x : String) : Nat := trace.countP (·.removes x)

/-- How many of some commands would store a record under an identifier. -/
def pending (commands : List Command) (x : String) : Nat := commands.countP (·.stores x)

theorem removals_append (a b : List Event) (x : String) :
    removals (a ++ b) x = removals a x + removals b x := List.countP_append

theorem removals_snoc (trace : List Event) (e : Event) (x : String) :
    removals (trace ++ [e]) x = removals trace x + (e.removes x).toNat := by
  rw [removals_append]
  unfold removals
  rw [List.countP_singleton]
  cases e.removes x <;> rfl

theorem pending_cons (commands : List Command) (c : Command) (x : String) :
    pending (c :: commands) x = pending commands x + (c.stores x).toNat := by
  unfold pending
  rw [List.countP_cons]
  cases c.stores x <;> rfl

theorem pending_erase {commands : List Command} {c : Command} (h : c ∈ commands) (x : String) :
    pending (commands.erase c) x + (c.stores x).toNat = pending commands x := by
  rw [← pending_cons]
  exact ((List.perm_cons_erase h).countP_eq _).symm

theorem requests_append (a b : List Event) (x : String) :
    requests (a ++ b) x = requests a x + requests b x := by
  unfold requests drafts
  rw [List.filterMap_append, List.countP_append]

theorem requests_snoc (trace : List Event) (e : Event) (x : String) :
    requests (trace ++ [e]) x = requests trace x + (e.draft?.toList).countP (·.identifier == x) := by
  rw [requests_append]
  unfold requests drafts
  cases h : e.draft? <;> simp [h]

/-- A command that a call has sent counts as a request if it is one. -/
theorem toNat_stores_le (c : Command) (x : String) {e : Event}
    (he : ∀ draft, c = .insert draft → e.draft? = some draft) :
    (c.stores x).toNat ≤ (e.draft?.toList).countP (·.identifier == x) := by
  cases c with
  | insert draft =>
    rw [he draft rfl]
    simp only [Command.stores, Option.toList_some, List.countP_singleton]
    cases draft.identifier == x <;> simp
  | find | remove | sweep | close => simp [Command.stores]

theorem eq_of_countP_le_one {α : Type} {l : List α} {p : α → Bool} (h : l.countP p ≤ 1) {a b : α}
    (ha : a ∈ l) (hb : b ∈ l) (pa : p a = true) (pb : p b = true) : a = b := by
  rw [List.countP_eq_length_filter] at h
  have ha' : a ∈ l.filter p := List.mem_filter.2 ⟨ha, pa⟩
  have hb' : b ∈ l.filter p := List.mem_filter.2 ⟨hb, pb⟩
  generalize l.filter p = m at h ha' hb'
  match m with
  | [] => cases ha'
  | [x] => rw [List.mem_singleton.1 ha', List.mem_singleton.1 hb']
  | _ :: _ :: _ => simp at h

namespace Scene

variable {s : Service} {w : Scene Memory} {trace : List Event}

namespace Run

/-- Acknowledged removals, records at hand and commands adrift come from as many requests. -/
theorem conservation (run : Run Memory.store s (quiet .empty) trace w) (x : String) :
    removals trace x + w.state.count x + pending w.adrift x ≤ requests trace x := by
  induction run with
  | refl => simp [quiet, Memory.count, Memory.empty, removals, pending]
  | @tail v w trace e run step ih =>
    rw [removals_snoc, requests_snoc]
    cases step with
    | start op => exact Nat.le_add_right_of_le ih
    | read now h => exact Nat.le_add_right_of_le ih
    | @serve i op c next now h =>
      have hstore := Memory.account_store v.state now c x
      have hdraft := toNat_stores_le c x
        (e := .served i now c (Memory.store now c v.state).1) (by rintro draft rfl; rfl)
      dsimp only [proceed, Event.removes]
      omega
    | @fail i op c next f h =>
      have hdraft := toNat_stores_le c x (e := .failed i c f) (by rintro draft rfl; rfl)
      dsimp only [proceed, Event.removes]
      rw [pending_cons, Bool.toNat_false]
      omega
    | @settle c now h =>
      have hstore := Memory.account_store v.state now c x
      have herase := pending_erase h x
      dsimp only [Event.removes]
      rw [Bool.toNat_false]
      omega

/-- What the store holds, and what is still adrift, was asked for. -/
theorem origin (run : Run Memory.store s (quiet .empty) trace w) :
    (∀ r ∈ w.state.records, ∃ d ∈ drafts trace, r = d.record) ∧
      ∀ d, .insert d ∈ w.adrift → d ∈ drafts trace := by
  induction run with
  | refl => simp [quiet, Memory.empty]
  | @tail v w trace e run step ih =>
    obtain ⟨hrecords, hadrift⟩ := ih
    have held : ∀ r ∈ v.state.records, ∃ d ∈ drafts (trace ++ [e]), r = d.record := by
      intro r hr
      obtain ⟨d, hd, rfl⟩ := hrecords r hr
      exact ⟨d, mem_drafts_snoc.2 (Or.inl hd), rfl⟩
    have waiting : ∀ d, .insert d ∈ v.adrift → d ∈ drafts (trace ++ [e]) :=
      fun d hd => mem_drafts_snoc.2 (Or.inl (hadrift d hd))
    cases step with
    | start op => exact ⟨held, waiting⟩
    | read now h => exact ⟨held, waiting⟩
    | serve now h =>
      refine ⟨fun r hr => ?_, waiting⟩
      rcases Memory.mem_store hr with hr | ⟨d, rfl, rfl⟩
      · exact held r hr
      · exact ⟨d, mem_drafts_snoc.2 (Or.inr rfl), rfl⟩
    | fail f h =>
      refine ⟨held, fun d hd => ?_⟩
      rcases List.mem_cons.1 hd with rfl | hd
      · exact mem_drafts_snoc.2 (Or.inr rfl)
      · exact waiting d hd
    | settle now h =>
      refine ⟨fun r hr => ?_, fun d hd => waiting d (List.mem_of_mem_erase hd)⟩
      rcases Memory.mem_store hr with hr | ⟨d, rfl, rfl⟩
      · exact held r hr
      · exact ⟨d, waiting d h, rfl⟩

/-- Under a fresh identifier, at most one record is ever asked for. -/
theorem requests_le_one (run : Run Memory.store s (quiet .empty) trace w)
    (fresh : w.Fresh fun random => (Uuid.ofRandom random).text) (x : String) : requests trace x ≤ 1 :=
  run.countP_drafts_le_one fresh x

/-- Under a fresh identifier, at most one removal is ever acknowledged. -/
theorem removals_le_one (run : Run Memory.store s (quiet .empty) trace w)
    (fresh : w.Fresh fun random => (Uuid.ofRandom random).text) (x : String) : removals trace x ≤ 1 := by
  have hcons := run.conservation x
  have hreq := run.requests_le_one fresh x
  omega

/-- A fresh identifier tells the draft. -/
theorem draft_unique (run : Run Memory.store s (quiet .empty) trace w)
    (fresh : w.Fresh fun random => (Uuid.ofRandom random).text) {d d' : Draft} (hd : d ∈ drafts trace)
    (hd' : d' ∈ drafts trace) (h : d.identifier = d'.identifier) : d = d' :=
  eq_of_countP_le_one (run.requests_le_one fresh d'.identifier) hd hd' (by simpa using h) (by simp)

end Run

end Scene

end Concurrency

end BurnAfterRead
