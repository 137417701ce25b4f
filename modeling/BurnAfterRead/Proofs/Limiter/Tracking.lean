import BurnAfterRead.Proofs.Limiter.Run
import Mathlib.Data.Finset.Card

/-!
# Who is tracked

A bucket tells when its client was last seen, which is the stamp of the check that came in last, whether
the client was let pass or not, and however the stamp compares with earlier ones. So an eviction keeps
exactly the clients whose last check is recent enough, and what is left are no more clients than have
asked recently.
-/

namespace BurnAfterRead

/-- Whatever comes of a check, the client was seen at its time. -/
theorem Bucket.lastSeen_check {α : Type} [TokenNumber α] (rate : α) (burst : Nat) (now : Int)
    (b : Bucket α) : (b.check rate burst now).2.lastSeen = now := by
  unfold check take
  dsimp only
  split
  · rfl
  · split <;> rfl

namespace Limiter

/-- The stamp of a client's last check, in order of arrival. -/
def lastCheck? (key : String) (events : List (Int × Event)) : Option Int :=
  (events.filter (·.2 == .check key)).getLast?.map (·.1)

/-- The last check of a client carries a stamp of at least `since`. -/
def AskedSince (since : Int) (events : List (Int × Event)) (key : String) : Prop :=
  ∃ now, lastCheck? key events = some now ∧ since ≤ now

instance (since : Int) (events : List (Int × Event)) : DecidablePred (AskedSince since events) := fun key =>
  decidable_of_iff ((lastCheck? key events).any (since ≤ ·) = true) (by
    simp only [AskedSince, Option.any_eq_true, decide_eq_true_eq])

/-- The clients with a check whose stamp is at least `since`. -/
def askers (since : Int) (events : List (Int × Event)) : Finset String :=
  (events.filterMap fun e =>
    match e.2 with
    | .check key => if since ≤ e.1 then some key else none
    | .evict => none).toFinset

section LastCheck

variable (key : String) (events : List (Int × Event)) (now : Int)

theorem lastCheck?_check_self : lastCheck? key (events ++ [(now, .check key)]) = some now := by
  simp [lastCheck?]

theorem lastCheck?_check_of_ne {client : String} (h : client ≠ key) :
    lastCheck? key (events ++ [(now, .check client)]) = lastCheck? key events := by
  simp [lastCheck?, h]

theorem lastCheck?_evict : lastCheck? key (events ++ [(now, .evict)]) = lastCheck? key events := by
  simp [lastCheck?]

end LastCheck

theorem AskedSince.mem_askers {since : Int} {events : List (Int × Event)} {key : String}
    (h : AskedSince since events key) : key ∈ askers since events := by
  obtain ⟨now, hlast, hsince⟩ := h
  obtain ⟨e, he, rfl⟩ := Option.map_eq_some_iff.1 hlast
  obtain ⟨hmem, hcheck⟩ := List.mem_filter.1 (List.mem_of_getLast? he)
  refine List.mem_toFinset.2 (List.mem_filterMap.2 ⟨e, hmem, ?_⟩)
  rw [eq_of_beq hcheck]
  exact if_pos hsince

variable {α : Type}

/-- The tracked clients. -/
def clients (l : Limiter α) : Finset String := (l.buckets.map (·.1)).toFinset

theorem mem_clients {l : Limiter α} {key : String} :
    key ∈ l.clients ↔ (l.bucket? key).isSome = true := by
  rw [clients, List.mem_toFinset, bucket?, ← not_iff_not, Option.not_isSome_iff_eq_none,
    List.lookup_eq_none_iff]
  constructor
  · intro hout e he
    rw [bne_iff_ne]
    rintro rfl
    exact hout (List.mem_map_of_mem he)
  · intro hne hmem
    obtain ⟨e, he, rfl⟩ := List.mem_map.1 hmem
    exact bne_iff_ne.1 (hne e he) rfl

theorem Distinct.card_clients {l : Limiter α} (h : l.Distinct) : l.clients.card = l.size := by
  rw [clients, List.toFinset_card_of_nodup h, List.length_map, size]

/-- Each bucket tells when its client's last check came in. -/
def SeenLast (events : List (Int × Event)) (l : Limiter α) : Prop :=
  ∀ key b, l.bucket? key = some b → lastCheck? key events = some b.lastSeen

section Step

variable {l : Limiter α} {events : List (Int × Event)}

theorem SeenLast.evict (h : SeenLast events l) (hdistinct : l.Distinct) (now : Int) :
    SeenLast (events ++ [(now, .evict)]) (l.evict now) := by
  intro key b hb
  rw [bucket?_evict hdistinct] at hb
  rw [lastCheck?_evict]
  exact h key b (Option.eq_some_of_filter_eq_some hb)

theorem SeenLast.check [TokenNumber α] (h : SeenLast events l) (client : String) (now : Int) :
    SeenLast (events ++ [(now, .check client)]) (l.check client now).2 := by
  intro key b hb
  by_cases hclient : key = client
  · subst hclient
    rw [bucket?_check_self] at hb
    rw [lastCheck?_check_self, ← Option.some.inj hb, Bucket.lastSeen_check]
  · rw [bucket?_check_of_ne l now hclient] at hb
    rw [lastCheck?_check_of_ne key events now (Ne.symm hclient)]
    exact h key b hb

/-- An eviction leaves the clients whose last check is recent enough, with their buckets as they were. -/
theorem SeenLast.bucket?_evict (h : SeenLast events l) (hdistinct : l.Distinct) (now : Int)
    (key : String) :
    (l.evict now).bucket? key =
      if AskedSince (now - l.ttl.nanos) events key then l.bucket? key else none := by
  rw [Limiter.bucket?_evict hdistinct]
  cases hb : l.bucket? key with
  | none => rw [Option.filter_none, ite_self]
  | some b =>
    have hasked : AskedSince (now - l.ttl.nanos) events key ↔ (now - b.lastSeen).toNat ≤ l.ttl.nanos := by
      unfold AskedSince
      rw [h key b hb]
      simp only [Option.some.injEq, exists_eq_left']
      omega
    rw [Option.filter_some]
    simp only [hasked, decide_eq_true_eq]

end Step

variable [TokenNumber α]

/-- In every run, through admissions, rejections and evictions, the buckets tell of the last checks. -/
theorem seenLast_run (rate : α) (burst : Nat) (ttl : Duration) (events : List (Int × Event)) :
    SeenLast events ((new rate burst ttl).run events).2 := by
  induction events using List.reverseRecOn with
  | nil => exact fun key b hb => nomatch hb
  | append_singleton events event ih =>
    rw [run_append_left]
    obtain ⟨now, event⟩ := event
    cases event with
    | check client => exact ih.check client now
    | evict => exact ih.evict ((distinct_new rate burst ttl).run events) now

/-- After any run, an eviction keeps exactly the tracked clients whose last check, in order of arrival,
carries a stamp that is at most the idle time old. Their buckets are what they were, those of the others are
gone, and the number that is told is the number of these. So no more clients are left than have asked with
such a stamp at all. -/
theorem tracked_after_eviction (rate : α) (burst : Nat) (ttl : Duration) (events : List (Int × Event))
    (now : Int) :
    let l := ((new rate burst ttl).run events).2
    (l.evict now).clients = l.clients.filter (AskedSince (now - ttl.nanos) events) ∧
      (∀ key, (l.evict now).bucket? key = if key ∈ (l.evict now).clients then l.bucket? key else none) ∧
      l.evicted now = (l.clients \ (l.evict now).clients).card ∧
      (l.evict now).size ≤ (askers (now - ttl.nanos) events).card := by
  intro l
  have hdistinct : l.Distinct := (distinct_new rate burst ttl).run events
  have hseen : SeenLast events l := seenLast_run rate burst ttl events
  have hbucket : ∀ key, (l.evict now).bucket? key =
      if AskedSince (now - ttl.nanos) events key then l.bucket? key else none := by
    have httl : l.ttl = ttl := ((new rate burst ttl).rules_run events).2.2
    rw [← httl]
    exact hseen.bucket?_evict hdistinct now
  have hclients : (l.evict now).clients = l.clients.filter (AskedSince (now - ttl.nanos) events) := by
    ext key
    rw [Finset.mem_filter, mem_clients, mem_clients, hbucket]
    split <;> simp_all
  refine ⟨hclients, fun key => ?_, ?_, ?_⟩
  · simp only [hclients, Finset.mem_filter, mem_clients, hbucket]
    cases l.bucket? key <;> simp
  · rw [Finset.card_sdiff_of_subset (hclients ▸ Finset.filter_subset _ _), hdistinct.card_clients,
      (hdistinct.evict now).card_clients]
    rfl
  · rw [← (hdistinct.evict now).card_clients, hclients]
    exact Finset.card_le_card fun key hkey => (Finset.mem_filter.1 hkey).2.mem_askers

end Limiter

end BurnAfterRead
