import BurnAfterRead.Proofs.Limiter.Envelope

/-!
# What a bucket is credited

A check credits a bucket with what the rate adds since the stamp of the check before. Callers read the
clock before they get to the bucket, so stamps may come out of order. A stamp that is set back credits
nothing, but the next credit is counted from there: the time between is credited a second time. Over a
run the rate is credited the time from the first stamp to the last, and all that was set back once more.
-/

namespace BurnAfterRead

/-- How far stamps are set back in all, each against the one before it. -/
def setBack : Int → List Int → Nat
  | _, [] => 0
  | last, now :: rest => (last - now).toNat + setBack now rest

/-- How far stamps are moved on in all, each against the one before it. -/
def movedOn : Int → List Int → Nat
  | _, [] => 0
  | last, now :: rest => (now - last).toNat + movedOn now rest

theorem movedOn_eq (first : Int) (rest : List Int) :
    (movedOn first rest : Int) = rest.getLastD first - first + setBack first rest := by
  induction rest generalizing first with
  | nil => simp [movedOn, setBack]
  | cons now rest ih =>
    have hrest := ih now
    rw [List.getLastD_cons, movedOn, setBack]
    omega

theorem setBack_eq_zero_iff (first : Int) (rest : List Int) :
    setBack first rest = 0 ↔ (first :: rest).Pairwise (· ≤ ·) := by
  induction rest generalizing first with
  | nil => simp [setBack]
  | cons now rest ih =>
    rw [← List.isChain_iff_pairwise, List.isChain_cons_cons, List.isChain_iff_pairwise, ← ih, setBack]
    omega

namespace Bucket

variable (rate : ℚ) (burst : Nat)

/-- What a check at `now` adds to a bucket, before the bucket is capped. -/
def credit (now : Int) (b : Bucket ℚ) : ℚ := seconds (now - b.lastRefill).toNat * rate

theorem found_eq_credit (now : Int) (b : Bucket ℚ) :
    b.found rate burst now = min (b.tokens + b.credit rate now) burst := rfl

/-- What checks at some times add to a bucket in all, each time before it is capped. -/
def credited : List Int → Bucket ℚ → ℚ
  | [], _ => 0
  | now :: rest, b => b.credit rate now + credited rest (b.check rate burst now).2

/-- A bucket is credited all by which the stamps are moved on. -/
theorem credited_eq (times : List Int) (b : Bucket ℚ) :
    b.credited rate burst times = rate * seconds (movedOn b.lastRefill times) := by
  induction times generalizing b with
  | nil => simp [credited, movedOn, seconds]
  | cons now rest ih =>
    rw [credited, ih, lastRefill_check, credit, movedOn]
    unfold seconds
    push_cast
    ring

/-- What is taken from a bucket, and what is left in it, was there before or has been credited. -/
theorem count_add_tokens_le_credited (times : List Int) (b : Bucket ℚ) :
    ((b.checkAll rate burst times).1.count .admitted : ℚ) + (b.checkAll rate burst times).2.tokens ≤
      b.tokens + b.credited rate burst times := by
  induction times generalizing b with
  | nil => simp [credited]
  | cons now rest ih =>
    have htaken := taken_add_left rate burst now b
    have hrest := ih (b.check rate burst now).2
    have hfound : b.found rate burst now ≤ b.tokens + b.credit rate now := by
      rw [found_eq_credit]
      exact min_le_left _ _
    rw [checkAll_cons, ← List.singleton_append, List.count_append, credited]
    push_cast
    linarith

/-- A bucket was last topped up at the stamp of the last check. -/
theorem lastRefill_checkAll (first : Int) (rest : List Int) (b : Bucket ℚ) :
    (b.checkAll rate burst (first :: rest)).2.lastRefill = rest.getLastD first := by
  induction rest generalizing first b with
  | nil => exact lastRefill_check rate burst first b
  | cons now rest ih =>
    rw [checkAll_cons, List.getLastD_cons]
    exact ih now (b.check rate burst first).2

end Bucket

namespace Limiter

/-- After each of its checks the bucket of a client was last topped up at the stamp of that check. -/
theorem lastRefill_run_checksOf (l : Limiter ℚ) (key : String) {first : Int} {rest : List Int} {n : Nat}
    {t : Int} (ht : (first :: rest)[n]? = some t) :
    ∃ b, (l.run (checksOf key ((first :: rest).take (n + 1)))).2.bucket? key = some b ∧
      b.lastRefill = t := by
  have hlast : (rest.take n).getLastD first = t := by
    cases n with
    | zero => simpa using ht
    | succ n =>
      obtain ⟨hn, rfl⟩ := List.getElem?_eq_some_iff.1 (show rest[n]? = some t from ht)
      rw [List.take_succ_eq_append_getElem hn, List.getLastD_concat]
  have hbucket := (l.run_checksOf key first (rest.take n)).2
  refine ⟨_, hbucket, ?_⟩
  rw [Bucket.lastRefill_checkAll, hlast]

/-- A client that asks for the first time, at whatever stamps: after each check its bucket was last topped
up at the stamp of that check, be it earlier than the one before. In all, the bucket is credited the time
from the first stamp to the last, and once more all that was set back, which is nothing only where the
stamps are in order. No more requests are admitted than a full bucket has tokens and is credited. -/
theorem credited_exact (l : Limiter ℚ) (key : String) (hnew : l.bucket? key = none) (first : Int)
    (rest : List Int) :
    let times := first :: rest
    let credited := (l.bucketAt key first).credited l.rate l.burst times
    (∀ n t, times[n]? = some t →
      ∃ b, (l.run (checksOf key (times.take (n + 1)))).2.bucket? key = some b ∧ b.lastRefill = t) ∧
    credited = l.rate * seconds (rest.getLastD first - first + setBack first rest) ∧
    (setBack first rest = 0 ↔ times.Pairwise (· ≤ ·)) ∧
    (0 ≤ l.rate →
      (((l.run (checksOf key times)).1.map (·.2)).count .admitted : ℚ) ≤ l.burst + credited) := by
  intro times credited
  have hat : l.bucketAt key first = Bucket.full l.burst first := by rw [bucketAt, hnew, Option.getD_none]
  refine ⟨fun n t ht => l.lastRefill_run_checksOf key ht, ?_, setBack_eq_zero_iff first rest,
    fun hrate => ?_⟩
  · -- the first check finds a bucket that is topped up already
    have hmoved : movedOn (Bucket.full l.burst first : Bucket ℚ).lastRefill times = movedOn first rest := by
      simp [times, movedOn, Bucket.full]
    dsimp only [credited]
    rw [hat, Bucket.credited_eq, hmoved, movedOn_eq]
  · have hsound : (Bucket.full l.burst first : Bucket ℚ).Sound l.burst := Bucket.Sound.full l.burst first
    have hleft := (hsound.checkAll hrate times).nonneg
    have hspent := Bucket.count_add_tokens_le_credited l.rate l.burst times (Bucket.full l.burst first)
    have htokens : (Bucket.full l.burst first : Bucket ℚ).tokens = l.burst := rfl
    dsimp only [credited]
    rw [(l.run_checksOf key first rest).1, hat]
    linarith

/-- Two tokens per second, and stamps that are set back by two seconds and moved on by one: the bucket is
credited that second, although the last stamp is earlier than the first. -/
theorem credited_exact_of_late_caller :
    let l : Limiter ℚ := new 2 3 defaultTtl
    let second : Int := 1000000000
    let times : List Int := [5 * second, 3 * second, 4 * second]
    l.bucket? "a" = none ∧
    (∃ b, (l.run (checksOf "a" (times.take 2))).2.bucket? "a" = some b ∧ b.lastRefill = 3 * second) ∧
    (l.bucketAt "a" (5 * second)).credited l.rate l.burst times = 2 ∧ ¬ times.Pairwise (· ≤ ·) ∧
    (((l.run (checksOf "a" times)).1.map (·.2)).count .admitted : ℚ) ≤ 3 + 2 := by
  intro l second times
  obtain ⟨hrefill, hcredited, hordered, hspent⟩ :=
    credited_exact l "a" rfl (5 * second) [3 * second, 4 * second]
  have htwo : (l.bucketAt "a" (5 * second)).credited l.rate l.burst times = 2 := by
    rw [hcredited]
    norm_num [l, new, seconds, second, setBack]
  refine ⟨rfl, hrefill 1 (3 * second) rfl, htwo, fun h => absurd (hordered.2 h) (by decide), ?_⟩
  have hspent := hspent (by norm_num [l, new])
  rw [htwo] at hspent
  exact hspent

/-- Of four checks the third has the stamp of the first, and the fourth that of the second: the second between
them is credited twice, and the last check takes a token that there is not. -/
theorem stretch_credited_twice :
    let l : Limiter ℚ := new 1 1 defaultTtl
    let second : Int := 1000000000
    let times : List Int := [0, second, 0, second]
    ((l.run (checksOf "a" (times.take 2))).2.bucket? "a").map (·.lastRefill) = some second ∧
    ((l.run (checksOf "a" (times.take 3))).2.bucket? "a").map (·.lastRefill) = some 0 ∧
    l.rate * seconds (second - 0) < (l.bucketAt "a" 0).credited l.rate l.burst times ∧
    (l.run (checksOf "a" times)).1.map (·.2) = [.admitted, .admitted, .rejected 1, .admitted] := by
  decide +kernel

end Limiter

end BurnAfterRead
