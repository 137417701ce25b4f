/-!
# The arithmetic of token buckets

Tokens, rates and seconds are numbers of one type. The limiter runs on doubles; on rationals the
same operations are exact, which is where laws about it are stated.
-/

namespace BurnAfterRead

/-- The operations that a token bucket needs. -/
class TokenNumber (α : Type) where
  /-- A number of tokens. -/
  ofTokens : Nat → α
  /-- Nanoseconds as seconds. -/
  ofNanos : Nat → α
  add : α → α → α
  sub : α → α → α
  mul : α → α → α
  div : α → α → α
  /-- The smaller of two numbers. -/
  min : α → α → α
  /-- Whether the first number is at most the second. -/
  atMost : α → α → Bool
  /-- Whether the number is more than zero. -/
  isPositive : α → Bool
  /-- The seconds rounded up, at least one, and at most the largest number of 64 bits. -/
  ceilSeconds : α → Nat

/-- The wait of a client whose bucket never fills up. -/
def endlessWait : Nat := UInt64.size - 1

/-- Doubles: the smaller or larger of a number and `NaN` is the number. -/
instance : TokenNumber Float where
  ofTokens n := n.toFloat
  ofNanos n := (n / 1000000000).toFloat + (n % 1000000000).toFloat / 1e9
  add := (· + ·)
  sub := (· - ·)
  mul := (· * ·)
  div := (· / ·)
  min x y := if x.isNaN then y else if y < x then y else x
  atMost x y := x ≤ y
  isPositive x := 0.0 < x
  ceilSeconds x :=
    let up := x.ceil
    (if up.isNaN || up < 1.0 then 1.0 else up).toUInt64.toNat

/-- Rationals: every operation is exact. -/
instance : TokenNumber Rat where
  ofTokens n := n
  ofNanos n := (n : Rat) / 1000000000
  add := (· + ·)
  sub := (· - ·)
  mul := (· * ·)
  div := (· / ·)
  min x y := if y < x then y else x
  atMost x y := x ≤ y
  isPositive x := 0 < x
  ceilSeconds x := Nat.min (Nat.max x.ceil.toNat 1) endlessWait

end BurnAfterRead
