import BurnAfterRead.Text.Numeral

/-!
# Shortest decimals

The shortest decimal that reads back as a double, and its positional text. A double is `m · 2 ^ q`
for a natural number `m`; the reals that round to it lie between the midpoints to its two
neighbours, ends included when `m` is even. Of the grids of multiples of a power of ten, the
coarsest that meets this interval gives the decimal; of two hits on it the nearer one counts.
-/

namespace BurnAfterRead.Decimal

/-- A decimal `digits · 10 ^ exponent`. -/
structure Scaled where
  digits : Nat
  exponent : Int
  deriving DecidableEq, Repr

/-- A finite positive double with the ends of its interval, over the denominator `den`. -/
structure Interval where
  value : Nat
  low : Nat
  high : Nat
  den : Nat
  closed : Bool
  deriving Repr

namespace Interval

/-- The interval of `m · 2 ^ q`. Below a power of two the neighbours lie half as far apart, except
at the smallest exponent. -/
def ofBinary (m : Nat) (q : Int) : Interval :=
  let narrow := m = 1 <<< 52 ∧ q > -1074
  let (value, low, high, q) :=
    if narrow then (4 * m, 4 * m - 1, 4 * m + 2, q - 2) else (2 * m, 2 * m - 1, 2 * m + 1, q - 1)
  let up := 1 <<< q.toNat
  ⟨value * up, low * up, high * up, 1 <<< (-q).toNat, m % 2 = 0⟩

/-- Whether the decimal lies in the interval. -/
def holds (i : Interval) (d : Scaled) : Bool :=
  let point := d.digits * Nat.pow 10 d.exponent.toNat * i.den
  let unit := Nat.pow 10 (-d.exponent).toNat
  if i.closed then i.low * unit ≤ point && point ≤ i.high * unit
  else i.low * unit < point && point < i.high * unit

/-- The decimal exponent of the value's first digit. -/
def leadingExponent (i : Interval) : Int :=
  if i.value ≥ i.den then (Text.decimal (i.value / i.den)).length - 1
  else -((Text.decimal (i.den / i.value)).length : Int)

/-- The decimal of the grid `10 ^ exponent` that stands for the value, if one does. The upper
neighbour wins a tie. -/
def onGrid? (i : Interval) (exponent : Int) : Option Scaled :=
  let scaled := i.value * Nat.pow 10 (-exponent).toNat
  let unit := i.den * Nat.pow 10 exponent.toNat
  let below : Scaled := ⟨scaled / unit, exponent⟩
  let above : Scaled := ⟨scaled / unit + 1, exponent⟩
  let fitsBelow := below.digits > 0 && i.holds below
  let fitsAbove := i.holds above
  if fitsBelow && fitsAbove then some (if 2 * (scaled % unit) < unit then below else above)
  else if fitsBelow then some below
  else if fitsAbove then some above
  else none

/-- The first hit on grids that get finer, one digit at a time. -/
def search (i : Interval) (exponent : Int) : Nat → Scaled
  | 0 => (i.onGrid? exponent).getD ⟨0, 0⟩
  | more + 1 =>
    match i.onGrid? exponent with
    | some d => d
    | none => search i (exponent - 1) more

/-- The shortest decimal of the interval; seventeen digits always suffice. -/
def shortest (i : Interval) : Scaled := i.search i.leadingExponent 17

end Interval

/-- The positional text of a decimal: no exponent, and no point after a whole number. -/
def Scaled.positional (d : Scaled) : List Char :=
  let ds := Text.decimal d.digits
  if d.exponent ≥ 0 then ds ++ List.replicate d.exponent.toNat '0'
  else
    let places := (-d.exponent).toNat
    let all := List.replicate (places + 1 - ds.length) '0' ++ ds
    let whole := all.take (all.length - places)
    let fraction := ((all.drop (all.length - places)).reverse.dropWhile (· == '0')).reverse
    if fraction.isEmpty then whole else whole ++ '.' :: fraction

end BurnAfterRead.Decimal
