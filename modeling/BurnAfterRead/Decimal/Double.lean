import BurnAfterRead.Decimal.Shortest
import BurnAfterRead.Text.Split

/-!
# Doubles as text

How doubles are written (shortest, positional) and read (decimal notation with an optional
exponent, infinities and `NaN`).
-/

namespace BurnAfterRead.Decimal

/-- A finite double is its sign and `mantissa · 2 ^ exponent`. -/
inductive Parts where
  | notANumber
  | infinite (negative : Bool)
  | finite (negative : Bool) (mantissa : Nat) (exponent : Int)
  deriving DecidableEq, Repr

/-- Takes the bits of a double apart. -/
def Parts.ofFloat (x : Float) : Parts :=
  let bits : Nat := x.toBits.toNat
  let negative := bits / 1 <<< 63 = 1
  let biased : Nat := bits / 1 <<< 52 % 1 <<< 11
  let fraction : Nat := bits % 1 <<< 52
  if biased = 2047 then if fraction = 0 then .infinite negative else .notANumber
  else if biased = 0 then .finite negative fraction (-1074)
  else .finite negative (1 <<< 52 + fraction) ((biased : Int) - 1075)

/-- The text of a double. -/
def format (x : Float) : String :=
  let sign (negative : Bool) (text : List Char) : String :=
    String.ofList (if negative then '-' :: text else text)
  match Parts.ofFloat x with
  | .notANumber => "NaN"
  | .infinite negative => sign negative ['i', 'n', 'f']
  | .finite negative 0 _ => sign negative ['0']
  | .finite negative m q => sign negative (Interval.ofBinary m q).shortest.positional

/-- Whether a decimal lies between 10⁻⁴ and 10¹⁶, where diagnostics write it without an exponent. -/
def Scaled.isModerate (d : Scaled) : Bool :=
  let magnitude := d.exponent + (Text.decimal d.digits).length
  magnitude > -4 && magnitude ≤ 16

/-- A decimal with one digit before the point and an exponent. -/
def Scaled.scientific (d : Scaled) : List Char :=
  let ds := Text.decimal d.digits
  let shown := (ds.reverse.dropWhile (· == '0')).reverse
  let exponent := d.exponent + ds.length - 1
  let sign := if exponent < 0 then ['-'] else []
  match shown with
  | first :: second :: rest =>
    first :: '.' :: second :: rest ++ 'e' :: sign ++ Text.decimal exponent.natAbs
  | _ => shown ++ 'e' :: sign ++ Text.decimal exponent.natAbs

/-- The text of a double in diagnostics: a whole number has one decimal place, and very large and
very small numbers have an exponent. -/
def diagnostic (x : Float) : String :=
  let sign (negative : Bool) (text : List Char) : String :=
    String.ofList (if negative then '-' :: text else text)
  match Parts.ofFloat x with
  | .notANumber => "NaN"
  | .infinite negative => sign negative ['i', 'n', 'f']
  | .finite negative 0 _ => sign negative ['0', '.', '0']
  | .finite negative m q =>
    let d := (Interval.ofBinary m q).shortest
    if d.isModerate then
      let text := d.positional
      sign negative (if text.contains '.' then text else text ++ ['.', '0'])
    else sign negative d.scientific

/-- The double nearest to `digits · 10 ^ exponent`. -/
def nearest (digits : Nat) (exponent : Int) : Float :=
  let magnitude := exponent + (Text.decimal digits).length
  if digits = 0 ∨ magnitude < -330 then 0.0
  else if magnitude > 330 then 1.0 / 0.0
  else Float.ofScientific digits (exponent < 0) exponent.natAbs

/-- Reads digits with an optional point and exponent; at least one digit stands before the
exponent. -/
def readUnsigned? (cs : List Char) : Option Float :=
  let whole := cs.takeWhile Char.isDigit
  let tail := cs.dropWhile Char.isDigit
  let (places, tail) := match tail with
    | '.' :: more => (more.takeWhile Char.isDigit, more.dropWhile Char.isDigit)
    | tail => ([], tail)
  let digits := whole ++ places
  if digits = [] then none
  else
    let value (exponent : Int) := nearest (Text.digitsValue digits) (exponent - places.length)
    match tail with
    | [] => some (value 0)
    | e :: more =>
      if e = 'e' ∨ e = 'E' then
        match more with
        | '-' :: ds => (Text.readDigits ds).map fun n => value (-n)
        | '+' :: ds => (Text.readDigits ds).map fun n => value n
        | ds => (Text.readDigits ds).map fun n => value n
      else none

/-- Reads a double without its sign. -/
def readMagnitude? (cs : List Char) : Option Float :=
  let word := Text.lower cs
  if word = ['n', 'a', 'n'] then some (0.0 / 0.0)
  else if word = ['i', 'n', 'f'] ∨ word = ['i', 'n', 'f', 'i', 'n', 'i', 't', 'y'] then some (1.0 / 0.0)
  else readUnsigned? cs

/-- Reads a double with an optional sign. -/
def read? : List Char → Option Float
  | '-' :: cs => (readMagnitude? cs).map (- ·)
  | '+' :: cs => readMagnitude? cs
  | cs => readMagnitude? cs

end BurnAfterRead.Decimal
