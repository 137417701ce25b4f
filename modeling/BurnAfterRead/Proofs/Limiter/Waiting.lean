import BurnAfterRead.Proofs.Limiter.Exact
import BurnAfterRead.Proofs.Limiter.Run
import BurnAfterRead.Settings.Basic

/-!
# The wait that a client is told

A client that is turned away is told a number of seconds. It is the least whole number of seconds, but
not less than one, in which the rate makes up for what is missing of a token. A client that waits for
so long without asking is admitted, and one that waits a second less is turned away again.
-/

namespace BurnAfterRead

theorem seconds_ofSeconds (n : Nat) : seconds (Duration.ofSeconds n).nanos = n := by
  unfold seconds Duration.ofSeconds Duration.nanosPerSecond
  push_cast
  exact mul_div_cancel_right₀ _ (by norm_num)

theorem ceilSeconds_eq (x : ℚ) : TokenNumber.ceilSeconds x = min (max x.ceil.toNat 1) endlessWait := rfl

theorem one_le_ceilSeconds (x : ℚ) : 1 ≤ TokenNumber.ceilSeconds x := by
  rw [ceilSeconds_eq]
  exact le_min (le_max_right _ _) (by decide)

theorem le_ceilSeconds {x : ℚ} (h : TokenNumber.ceilSeconds x < endlessWait) :
    x ≤ TokenNumber.ceilSeconds x := by
  rw [ceilSeconds_eq] at h ⊢
  have hceil : x.ceil ≤ ((min (max x.ceil.toNat 1) endlessWait : ℕ) : Int) := by omega
  calc x ≤ (((min (max x.ceil.toNat 1) endlessWait : ℕ) : Int) : ℚ) := Rat.ceil_le_iff.1 hceil
    _ = ((min (max x.ceil.toNat 1) endlessWait : ℕ) : ℚ) := Int.cast_natCast _

theorem ceilSeconds_pred_lt {x : ℚ} (h : 1 < TokenNumber.ceilSeconds x) :
    ((TokenNumber.ceilSeconds x - 1 : ℕ) : ℚ) < x := by
  rw [ceilSeconds_eq] at h ⊢
  have hceil : ((min (max x.ceil.toNat 1) endlessWait - 1 : ℕ) : Int) ≤ x.ceil - 1 := by omega
  calc ((min (max x.ceil.toNat 1) endlessWait - 1 : ℕ) : ℚ)
      = (((min (max x.ceil.toNat 1) endlessWait - 1 : ℕ) : Int) : ℚ) := (Int.cast_natCast _).symm
    _ ≤ ((x.ceil - 1 : Int) : ℚ) := by exact_mod_cast hceil
    _ = (x.ceil : ℚ) - 1 := by push_cast; ring
    _ < x := by linarith [@Rat.ceil_lt x]

namespace Bucket

variable {rate : ℚ} {burst : Nat} {now : Int} {b : Bucket ℚ}

/-- Where a bucket can hold a token, there is one as soon as the rate has made up for what is missing. -/
theorem one_le_found_iff (hrate : 0 < rate) (hburst : 1 ≤ burst) (h : b.lastRefill ≤ now) :
    1 ≤ b.found rate burst now ↔ (1 - b.tokens) / rate ≤ seconds (now - b.lastRefill) := by
  have hroom : (1 : ℚ) ≤ burst := by exact_mod_cast hburst
  rw [found_eq rate burst h, le_min_iff, and_iff_left hroom, div_le_iff₀ hrate]
  constructor
  · intro hone
    linarith
  · intro hmissing
    linarith

/-- Since `now` a bucket lacks a token: the rate makes up for it in `wait` seconds, but in no whole
number of seconds less than that. -/
structure Awaits (rate : ℚ) (now : Int) (wait : Nat) (b : Bucket ℚ) : Prop where
  since : b.lastRefill = now
  one_le : 1 ≤ wait
  enough : (1 - b.tokens) / rate ≤ wait
  least : 1 < wait → ((wait - 1 : ℕ) : ℚ) < (1 - b.tokens) / rate

theorem awaits_of_rejected (hrate : 0 < rate) {wait : Nat} (h : (b.check rate burst now).1 = .rejected wait)
    (hfinite : wait < endlessWait) : (b.check rate burst now).2.Awaits rate now wait := by
  by_cases hone : 1 ≤ b.found rate burst now
  · rw [check_of_found hone] at h
    cases h
  · rw [check_of_missing (not_le.1 hone), Bucket.wait, if_pos hrate] at h ⊢
    obtain rfl := Admission.rejected.inj h
    exact ⟨rfl, one_le_ceilSeconds _, le_ceilSeconds hfinite, ceilSeconds_pred_lt⟩

namespace Awaits

variable {wait : Nat}

theorem admitted (h : b.Awaits rate now wait) (hrate : 0 < rate) (hburst : 1 ≤ burst) {later : Int}
    (hlater : now + (Duration.ofSeconds wait).nanos ≤ later) :
    (b.check rate burst later).1 = .admitted := by
  have hpast : b.lastRefill ≤ later := by
    rw [h.since]
    omega
  have hmade : (1 - b.tokens) / rate ≤ seconds (later - b.lastRefill) := by
    calc (1 - b.tokens) / rate ≤ wait := h.enough
      _ = seconds (Duration.ofSeconds wait).nanos := (seconds_ofSeconds wait).symm
      _ ≤ seconds (later - b.lastRefill) := seconds_le (by rw [h.since]; omega)
  rw [check_of_found ((one_le_found_iff hrate hburst hpast).2 hmade)]

theorem rejected (h : b.Awaits rate now wait) (hrate : 0 < rate) (hburst : 1 ≤ burst) (hwait : 1 < wait) :
    ∃ more, (b.check rate burst (now + (Duration.ofSeconds (wait - 1)).nanos)).1 = .rejected more := by
  have hpast : b.lastRefill ≤ now + (Duration.ofSeconds (wait - 1)).nanos := by
    rw [h.since]
    omega
  have helapsed : seconds (now + (Duration.ofSeconds (wait - 1)).nanos - b.lastRefill) =
      ((wait - 1 : ℕ) : ℚ) := by
    rw [h.since, add_sub_cancel_left, seconds_ofSeconds]
  have hmissing : b.found rate burst (now + (Duration.ofSeconds (wait - 1)).nanos) < 1 := by
    rw [← not_le, one_le_found_iff hrate hburst hpast, helapsed]
    exact not_le.2 (h.least hwait)
  exact ⟨_, by rw [check_of_missing hmissing]⟩

end Awaits

end Bucket

/-- What settings must have to be used by a limiter: a rate, and room for a token. -/
theorem LimiterSettings.rules_of_check {settings : LimiterSettings ℚ} (henabled : settings.enabled = true)
    (h : settings.check = .ok ()) : 0 < settings.rate ∧ 1 ≤ settings.burst := by
  unfold LimiterSettings.check at h
  rw [henabled] at h
  simp only [Bool.not_true, Bool.false_eq_true, if_false] at h
  split at h
  · cases h
  split at h
  · cases h
  rename_i hrate
  split at h
  · cases h
  rename_i hburst
  exact ⟨by simpa [TokenNumber.isPositive] using hrate, Nat.one_le_iff_ne_zero.2 hburst⟩

namespace Limiter

/-- A client that has not asked since a check is answered out of what that check has left in its bucket, if
the bucket was not dropped meanwhile. -/
theorem answer_of_quiet {l : Limiter ℚ} (h : l.Distinct) {key : String} {now : Int}
    {between : List (Int × Event)} (hquiet : ∀ e ∈ between, e.2 ≠ .check key)
    (hkept : ((l.check key now).2.run between).2.tracks key = true) (later : Int) :
    (((l.check key now).2.run between).2.check key later).1 =
      (((l.bucketAt key now).check l.rate l.burst now).2.check l.rate l.burst later).1 := by
  obtain ⟨hrate, hburst, -⟩ := (l.check key now).2.rules_run between
  have hbucket : ((l.check key now).2.run between).2.bucket? key =
      some ((l.bucketAt key now).check l.rate l.burst now).2 := by
    rw [← l.bucket?_check_self key now]
    refine (bucket?_run_of_quiet (h.check key now) hquiet).resolve_right fun hnone => ?_
    rw [tracks, hnone] at hkept
    cases hkept
  rw [answer_check, bucketAt, hbucket, Option.getD_some, hrate, hburst, rate_check, burst_check]

/-- A client that is turned away is told at least a second. If it does not ask again, and its bucket is not
dropped meanwhile, it is admitted from the end of that wait on; and a wait of more than a second is not
told in vain, as a second before its end the client is turned away. -/
theorem wait_exact (settings : LimiterSettings ℚ) (henabled : settings.enabled = true)
    (hvalid : settings.check = .ok ()) (before : List (Int × Event)) (key : String) (now : Int) (wait : Nat)
    (hrejected : ((settings.limiter.run before).2.check key now).1 = .rejected wait)
    (hfinite : wait < endlessWait) (between : List (Int × Event))
    (hquiet : ∀ e ∈ between, e.2 ≠ .check key)
    (hkept : (((settings.limiter.run before).2.check key now).2.run between).2.tracks key = true) :
    let l := (((settings.limiter.run before).2.check key now).2.run between).2
    1 ≤ wait ∧
    (∀ later, now + (Duration.ofSeconds wait).nanos ≤ later → (l.check key later).1 = .admitted) ∧
    (1 < wait →
      ∃ more, (l.check key (now + (Duration.ofSeconds (wait - 1)).nanos)).1 = .rejected more) := by
  intro l
  obtain ⟨hrate, hburst, -⟩ := settings.limiter.rules_run before
  obtain ⟨hpositive, hroom⟩ := LimiterSettings.rules_of_check henabled hvalid
  have hpositive : 0 < (settings.limiter.run before).2.rate := by rwa [hrate]
  have hroom : 1 ≤ (settings.limiter.run before).2.burst := by rwa [hburst]
  have hdistinct : (settings.limiter.run before).2.Distinct :=
    (distinct_new settings.rate settings.burst settings.ttl).run before
  have hawaits := Bucket.awaits_of_rejected hpositive hrejected hfinite
  refine ⟨hawaits.one_le, fun later hlater => ?_, fun hwait => ?_⟩
  · have hadmitted := hawaits.admitted hpositive hroom hlater
    exact (answer_of_quiet hdistinct hquiet hkept later).trans hadmitted
  · obtain ⟨more, hmore⟩ := hawaits.rejected hpositive hroom hwait
    exact ⟨more, (answer_of_quiet hdistinct hquiet hkept _).trans hmore⟩

/-- At a token every three seconds, a client that comes back after one second is told to wait for two more.
It is admitted after them, and not after one, whatever another client asks and an eviction drops. -/
theorem wait_exact_of_third_of_token :
    let settings : LimiterSettings ℚ := { rate := 1 / 3, burst := 1 }
    let second : Int := 1000000000
    let before : List (Int × Event) := [(0, .check "a"), (0, .check "b")]
    let between : List (Int × Event) := [(301 * second, .evict), (second, .check "b")]
    let l := (((settings.limiter.run before).2.check "a" second).2.run between).2
    ((settings.limiter.run before).2.check "a" second).1 = .rejected 2 ∧ 1 ≤ 2 ∧
    (l.check "a" (3 * second)).1 = .admitted ∧ ∃ more, (l.check "a" (2 * second)).1 = .rejected more := by
  intro settings second before between l
  have hrejected : ((settings.limiter.run before).2.check "a" second).1 = .rejected 2 := by decide +kernel
  obtain ⟨hone, hadmitted, hagain⟩ := wait_exact settings rfl (by decide +kernel) before "a" second 2
    hrejected (by decide) between (by decide) (by decide +kernel)
  exact ⟨hrejected, hone, hadmitted (3 * second) (by decide), hagain (by decide)⟩

end Limiter

end BurnAfterRead
