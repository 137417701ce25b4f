import BurnAfterRead.Limiter.Basic
import Mathlib.Algebra.Order.Field.Rat
import Mathlib.Tactic.Linarith
import Mathlib.Tactic.Positivity
import Mathlib.Tactic.Ring

/-!
# Token buckets over rationals

On rationals the arithmetic of a bucket is exact: a request finds the tokens that were left and what
the rate has added since, up to the burst size. If that makes a whole token, one is taken; if not, the
client is told to wait.
-/

namespace BurnAfterRead

/-- Nanoseconds as seconds. -/
def seconds (nanos : Int) : ℚ := nanos / 1000000000

theorem seconds_le {n m : Int} (h : n ≤ m) : seconds n ≤ seconds m := by
  unfold seconds
  have hcast : (n : ℚ) ≤ m := by exact_mod_cast h
  linarith

theorem seconds_self_sub (n : Int) : seconds (n - n) = 0 := by
  unfold seconds
  simp

theorem seconds_nonneg {n : Int} (h : 0 ≤ n) : 0 ≤ seconds n := by
  have hle := seconds_le h
  simpa [seconds] using hle

/-- Two stretches of time of which one follows the other. -/
theorem seconds_add (a b c : Int) : seconds (b - a) + seconds (c - b) = seconds (c - a) := by
  unfold seconds
  push_cast
  ring

theorem TokenNumber.min_eq (x y : ℚ) : TokenNumber.min x y = Min.min x y := by
  change (if y < x then y else x) = Min.min x y
  split
  · rename_i h
    exact (min_eq_right h.le).symm
  · rename_i h
    exact (min_eq_left (not_lt.1 h)).symm

namespace Bucket

/-- The tokens that a request at `now` finds. -/
def found (rate : ℚ) (burst : Nat) (now : Int) (b : Bucket ℚ) : ℚ :=
  min (b.tokens + seconds (now - b.lastRefill).toNat * rate) burst

/-- What a client is told whose bucket holds less than a token. -/
def wait (rate tokens : ℚ) : Nat :=
  if 0 < rate then TokenNumber.ceilSeconds ((1 - tokens) / rate) else endlessWait

section Check

variable {rate : ℚ} {burst : Nat} {now : Int} {b : Bucket ℚ}

theorem refill_eq : b.refill rate burst now = ⟨b.found rate burst now, now, now⟩ := by
  simp only [refill, TokenNumber.min_eq]
  rfl

theorem check_of_found (h : 1 ≤ b.found rate burst now) :
    b.check rate burst now = (.admitted, ⟨b.found rate burst now - 1, now, now⟩) := by
  unfold check take
  rw [refill_eq]
  have hone : TokenNumber.atMost (1 : ℚ) (b.found rate burst now) = true := decide_eq_true h
  exact if_pos hone

theorem check_of_missing (h : b.found rate burst now < 1) :
    b.check rate burst now =
      (.rejected (wait rate (b.found rate burst now)), ⟨b.found rate burst now, now, now⟩) := by
  unfold check take wait
  rw [refill_eq]
  have hone : ¬ TokenNumber.atMost (1 : ℚ) (b.found rate burst now) = true := by
    simpa [TokenNumber.atMost] using h
  refine (if_neg hone).trans ?_
  by_cases hrate : 0 < rate
  · rw [if_pos hrate]
    exact if_pos (decide_eq_true hrate)
  · rw [if_neg hrate]
    exact if_neg (by simpa [TokenNumber.isPositive] using hrate)

variable (rate burst now b) in
theorem lastRefill_check : (b.check rate burst now).2.lastRefill = now := by
  by_cases hone : 1 ≤ b.found rate burst now
  · rw [check_of_found hone]
  · rw [check_of_missing (not_le.1 hone)]

/-- The tokens that a request takes, and those that it leaves, are those that it finds. -/
theorem taken_add_left (rate : ℚ) (burst : Nat) (now : Int) (b : Bucket ℚ) :
    ([(b.check rate burst now).1].count .admitted : ℚ) + (b.check rate burst now).2.tokens =
      b.found rate burst now := by
  by_cases hone : 1 ≤ b.found rate burst now
  · simp [check_of_found hone]
  · simp [check_of_missing (not_le.1 hone)]

/-- On a clock that is not set back, the rate adds its share of the time, and what is too much for the
bucket is lost. -/
theorem found_eq (rate : ℚ) (burst : Nat) (h : b.lastRefill ≤ now) :
    b.found rate burst now = min (b.tokens + rate * seconds (now - b.lastRefill)) burst := by
  unfold found
  rw [Int.toNat_of_nonneg (by omega), mul_comm]

end Check

/-- A bucket holds at least nothing and at most the burst size, and its client was last seen when it
was last topped up. -/
structure Sound (burst : Nat) (b : Bucket ℚ) : Prop where
  nonneg : 0 ≤ b.tokens
  le_burst : b.tokens ≤ burst
  seen : b.lastSeen = b.lastRefill

namespace Sound

variable {rate : ℚ} {burst : Nat} {b : Bucket ℚ}

theorem full (burst : Nat) (now : Int) : Sound burst (Bucket.full burst now) where
  nonneg := by
    change (0 : ℚ) ≤ (burst : ℚ)
    positivity
  le_burst := le_refl _
  seen := rfl

theorem found_nonneg (h : Sound burst b) (hrate : 0 ≤ rate) (now : Int) : 0 ≤ b.found rate burst now := by
  have hrefill : 0 ≤ seconds (now - b.lastRefill).toNat * rate :=
    mul_nonneg (seconds_nonneg (Int.natCast_nonneg _)) hrate
  have htokens := h.nonneg
  exact le_min (by linarith) (by positivity)

/-- Whatever the clock shows, a check leaves a sound bucket. -/
theorem check (h : Sound burst b) (hrate : 0 ≤ rate) (now : Int) :
    Sound burst (b.check rate burst now).2 := by
  have hnonneg := h.found_nonneg hrate now
  have hburst : b.found rate burst now ≤ burst := min_le_right _ _
  by_cases hone : 1 ≤ b.found rate burst now
  · rw [check_of_found hone]
    exact ⟨by linarith, by dsimp only; linarith, rfl⟩
  · rw [check_of_missing (not_le.1 hone)]
    exact ⟨hnonneg, hburst, rfl⟩

end Sound

end Bucket

end BurnAfterRead
