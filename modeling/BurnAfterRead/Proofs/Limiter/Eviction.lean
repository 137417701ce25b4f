import BurnAfterRead.Proofs.Limiter.Exact
import BurnAfterRead.Proofs.Limiter.Run

/-!
# Evictions go unseen

A bucket that is dropped is replaced by a full one when its client comes back. No client can tell, if in
the time that it takes to be dropped a bucket fills up anyway. Two limiters run side by side to show it,
of which only one drops buckets: it holds the same ones as the other, less some that are full again.
-/

namespace BurnAfterRead

namespace Bucket

variable {rate : ℚ} {burst : Nat} {now : Int} {b : Bucket ℚ}

/-- From `now` on a top-up fills the bucket to the brim. -/
def IsRestored (rate : ℚ) (burst : Nat) (now : Int) (b : Bucket ℚ) : Prop :=
  burst ≤ b.tokens + rate * seconds (now - b.lastRefill)

theorem IsRestored.later (h : b.IsRestored rate burst now) (hrate : 0 ≤ rate) {now' : Int}
    (hle : now ≤ now') : b.IsRestored rate burst now' := by
  have hmore : rate * seconds (now - b.lastRefill) ≤ rate * seconds (now' - b.lastRefill) :=
    mul_le_mul_of_nonneg_left (seconds_le (by omega)) hrate
  unfold IsRestored at h ⊢
  linarith

/-- A bucket that is restored is as good as a new one. -/
theorem IsRestored.check (h : b.IsRestored rate burst now) (hle : b.lastRefill ≤ now) :
    b.check rate burst now = (Bucket.full burst now).check rate burst now := by
  have hfound : b.found rate burst now = burst := by
    rw [found_eq rate burst hle]
    exact min_eq_right h
  have hfull : (Bucket.full burst now : Bucket ℚ).found rate burst now = burst := by
    rw [found_eq rate burst (le_refl now)]
    refine min_eq_right ?_
    change (burst : ℚ) ≤ burst + rate * seconds (now - now)
    rw [seconds_self_sub, mul_zero, add_zero]
  unfold Bucket.check
  rw [refill_eq, refill_eq, hfound, hfull]

/-- A bucket that nobody has asked for so long is restored. -/
theorem Sound.isRestored (h : b.Sound burst) (hrate : 0 ≤ rate) {ttl : Nat}
    (hfill : burst ≤ rate * seconds ttl) (hidle : ttl < (now - b.lastSeen).toNat) :
    b.IsRestored rate burst now := by
  have htime : rate * seconds ttl ≤ rate * seconds (now - b.lastRefill) := by
    refine mul_le_mul_of_nonneg_left (seconds_le ?_) hrate
    rw [← h.seen]
    omega
  have htokens := h.nonneg
  unfold IsRestored
  linarith

/-- Without a burst and a rate there are no tokens. -/
theorem answer_of_barred (hrate : rate ≤ 0) (now : Int) (b : Bucket ℚ) :
    (b.check rate 0 now).1 = .rejected endlessWait := by
  have hfound : b.found rate 0 now < 1 := by
    have hle : b.found rate 0 now ≤ ((0 : ℕ) : ℚ) := min_le_right _ _
    push_cast at hle
    linarith
  rw [check_of_missing hfound, wait, if_neg (not_lt.2 hrate)]

end Bucket

namespace Limiter

/-! ## Limiters side by side -/

/-- A relation at each time between a limiter and one that drops no buckets: no event breaks it, and the two
tell a client the same. -/
structure Simulation (R : Int → Limiter ℚ → Limiter ℚ → Prop) : Prop where
  later : ∀ {now now' l l'}, R now l l' → now ≤ now' → R now' l l'
  answer : ∀ {now l l'} key, R now l l' → (l.check key now).1 = (l'.check key now).1
  check : ∀ {now l l'} key, R now l l' → R now (l.check key now).2 (l'.check key now).2
  evict : ∀ {now l l'}, R now l l' → R now (l.evict now) l'

/-- A run tells every client what the run without evictions does. -/
theorem Simulation.run {R : Int → Limiter ℚ → Limiter ℚ → Prop} (hR : Simulation R) {l l' : Limiter ℚ}
    {now : Int} (h : R now l l') {events : List (Int × Event)}
    (ordered : (now :: events.map (·.1)).Pairwise (· ≤ ·)) :
    (l.run events).1 = (l'.run (events.filter (·.2.isCheck))).1 := by
  induction events generalizing l l' now with
  | nil => rfl
  | cons event rest ih =>
    obtain ⟨time, event⟩ := event
    obtain ⟨hnow, hrest⟩ := List.pairwise_cons.1 ordered
    have hthen := hR.later h (hnow time List.mem_cons_self)
    cases event with
    | check key =>
      rw [List.filter_cons_of_pos rfl, run_check, run_check, hR.answer key hthen,
        ih (hR.check key hthen) hrest]
    | evict =>
      rw [List.filter_cons_of_neg (by simp [Event.isCheck]), run_evict]
      exact ih (hR.evict hthen) hrest

/-! ## Buckets that fill up in time -/

/-- What is left of a limiter by evictions up to `now`: the same buckets, less some that are restored. Its
buckets fill up in the time that it takes to drop them. -/
structure Pruned (now : Int) (l l' : Limiter ℚ) : Prop where
  rate : l.rate = l'.rate
  burst : l.burst = l'.burst
  rate_nonneg : 0 ≤ l'.rate
  fills : l'.burst ≤ l'.rate * seconds l.ttl.nanos
  distinct : l.Distinct
  absent : ∀ key, l'.bucket? key = none → l.bucket? key = none
  held : ∀ key b, l'.bucket? key = some b → b.Sound l'.burst ∧ b.lastRefill ≤ now ∧
    (l.bucket? key = some b ∨ l.bucket? key = none ∧ b.IsRestored l'.rate l'.burst now)

namespace Pruned

variable {l l' : Limiter ℚ} {now : Int}

theorem later (h : Pruned now l l') {now' : Int} (hle : now ≤ now') : Pruned now' l l' where
  __ := h
  held key b hb := by
    obtain ⟨hsound, hlast, hcase⟩ := h.held key b hb
    refine ⟨hsound, hlast.trans hle, hcase.imp_right fun ⟨hnone, hfull⟩ => ?_⟩
    exact ⟨hnone, hfull.later h.rate_nonneg hle⟩

/-- The bucket that a check finds serves as well as the one that was kept. -/
theorem check_bucketAt (h : Pruned now l l') (key : String) :
    (l.bucketAt key now).check l.rate l.burst now = (l'.bucketAt key now).check l'.rate l'.burst now := by
  rw [h.rate, h.burst]
  cases hkept : l'.bucket? key with
  | none => rw [bucketAt, bucketAt, h.absent key hkept, hkept, h.burst]
  | some b =>
    obtain ⟨-, hlast, hsame | ⟨hnone, hfull⟩⟩ := h.held key b hkept
    · rw [bucketAt, bucketAt, hsame, hkept, Option.getD_some, Option.getD_some]
    · rw [bucketAt, bucketAt, hnone, hkept, Option.getD_none, Option.getD_some, h.burst, hfull.check hlast]

theorem sound_bucketAt (h : Pruned now l l') (key : String) : (l'.bucketAt key now).Sound l'.burst := by
  rw [bucketAt]
  cases hkept : l'.bucket? key with
  | none => exact Bucket.Sound.full l'.burst now
  | some b => exact (h.held key b hkept).1

theorem answer_eq (h : Pruned now l l') (key : String) : (l.check key now).1 = (l'.check key now).1 := by
  rw [answer_check, answer_check, h.check_bucketAt]

theorem check (h : Pruned now l l') (key : String) :
    Pruned now (l.check key now).2 (l'.check key now).2 where
  rate := h.rate
  burst := h.burst
  rate_nonneg := h.rate_nonneg
  fills := h.fills
  distinct := h.distinct.check key now
  absent other hnone := by
    by_cases hother : other = key
    · rw [hother, bucket?_check_self] at hnone
      cases hnone
    · rw [bucket?_check_of_ne _ _ hother] at hnone ⊢
      exact h.absent other hnone
  held other b hb := by
    by_cases hother : other = key
    · rw [hother, bucket?_check_self] at hb ⊢
      rw [h.check_bucketAt]
      obtain rfl := Option.some.inj hb
      have hsound := (h.sound_bucketAt key).check h.rate_nonneg now
      exact ⟨hsound, (Bucket.lastRefill_check _ _ _ _).le, Or.inl rfl⟩
    · rw [bucket?_check_of_ne _ _ hother] at hb ⊢
      exact h.held other b hb

/-- What one of the limiters drops is restored in the other. -/
theorem evict (h : Pruned now l l') : Pruned now (l.evict now) l' where
  rate := h.rate
  burst := h.burst
  rate_nonneg := h.rate_nonneg
  fills := h.fills
  distinct := h.distinct.evict now
  absent key hnone := by rw [bucket?_evict h.distinct, h.absent key hnone, Option.filter_none]
  held key b hb := by
    obtain ⟨hsound, hlast, hsame | ⟨hnone, hfull⟩⟩ := h.held key b hb
    · refine ⟨hsound, hlast, ?_⟩
      rw [bucket?_evict h.distinct, hsame, Option.filter_some]
      by_cases hidle : (now - b.lastSeen).toNat ≤ l.ttl.nanos
      · exact Or.inl (if_pos (decide_eq_true hidle))
      · have hrestored := hsound.isRestored h.rate_nonneg h.fills (not_le.1 hidle)
        exact Or.inr ⟨if_neg (by simpa using hidle), hrestored⟩
    · refine ⟨hsound, hlast, Or.inr ⟨?_, hfull⟩⟩
      rw [bucket?_evict h.distinct, hnone, Option.filter_none]

theorem simulation : Simulation Pruned where
  later h hle := h.later hle
  answer key h := h.answer_eq key
  check key h := h.check key
  evict h := h.evict

end Pruned

/-! ## Limiters without tokens -/

/-- There are no tokens at first, and none are ever added. -/
def IsBarred (l : Limiter ℚ) : Prop := l.rate ≤ 0 ∧ l.burst = 0

theorem IsBarred.answer {l : Limiter ℚ} (h : l.IsBarred) (key : String) (now : Int) :
    (l.check key now).1 = .rejected endlessWait := by
  rw [answer_check, h.2]
  exact Bucket.answer_of_barred h.1 now _

/-- Where there are never any tokens, it does not matter what is evicted. -/
theorem simulation_isBarred : Simulation fun _ l l' => l.IsBarred ∧ l'.IsBarred where
  later h _ := h
  answer key h := (h.1.answer key _).trans (h.2.answer key _).symm
  check _ h := h
  evict h := h

/-- If a bucket fills up in the time that it takes to be dropped, evictions at whatever times make no
difference to what any client is told. -/
theorem evictions_unseen (rate : ℚ) (burst : Nat) (ttl : Duration)
    (hfill : (burst : ℚ) ≤ rate * seconds ttl.nanos) (events : List (Int × Event))
    (ordered : (events.map (·.1)).Pairwise (· ≤ ·)) :
    ((new rate burst ttl).run events).1 =
      ((new rate burst ttl).run (events.filter (·.2.isCheck))).1 := by
  have hidle : 0 ≤ seconds ttl.nanos := seconds_nonneg (Int.natCast_nonneg _)
  cases events with
  | nil => rfl
  | cons event rest =>
    have hordered : (event.1 :: (event :: rest).map (·.1)).Pairwise (· ≤ ·) := by
      refine List.pairwise_cons.2 ⟨fun t ht => ?_, ordered⟩
      rcases List.mem_cons.1 ht with rfl | ht
      · exact le_refl _
      · exact (List.pairwise_cons.1 ordered).1 t ht
    rcases le_or_gt 0 rate with hrate | hrate
    · have hpruned : Pruned event.1 (new rate burst ttl) (new rate burst ttl) :=
        ⟨rfl, rfl, hrate, hfill, distinct_new rate burst ttl, fun _ h => h, fun key b hb => by cases hb⟩
      exact Pruned.simulation.run hpruned hordered
    · -- a rate below zero fills no bucket, so there is nothing to fill
      have hle : (burst : ℚ) ≤ 0 := hfill.trans (mul_nonpos_of_nonpos_of_nonneg hrate.le hidle)
      have hbarred : (new rate burst ttl).IsBarred :=
        ⟨hrate.le, by exact_mod_cast le_antisymm hle (Nat.cast_nonneg burst)⟩
      exact simulation_isBarred.run ⟨hbarred, hbarred⟩ hordered

/-- A bucket of three tokens fills up in 300 seconds, the idle time: one client comes back when its bucket
was just dropped, another one when its bucket was just not. -/
theorem evictions_unseen_at_idle_time :
    let l : Limiter ℚ := new (1 / 100) 3 defaultTtl
    let second : Int := 1000000000
    let events : List (Int × Event) :=
      [(0, .check "a"), (0, .check "a"), (0, .check "a"), (0, .check "a"), (second, .check "b"),
        (301 * second, .evict), (301 * second, .check "b"), (301 * second, .check "a")]
    ((3 : ℕ) : ℚ) ≤ 1 / 100 * seconds defaultTtl.nanos ∧
      (l.run events).1 = (l.run (events.filter (·.2.isCheck))).1 ∧
      (l.run (events.take 6)).2.tracks "a" = false ∧ (l.run (events.take 6)).2.tracks "b" = true := by
  intro l second events
  have hfill : ((3 : ℕ) : ℚ) ≤ 1 / 100 * seconds defaultTtl.nanos := by
    norm_num [seconds, defaultTtl, Duration.ofSeconds, Duration.nanosPerSecond]
  exact ⟨hfill, evictions_unseen (1 / 100) 3 defaultTtl hfill events (by decide), by decide +kernel,
    by decide +kernel⟩

end Limiter

end BurnAfterRead
