import BurnAfterRead.Failure
import BurnAfterRead.Text.Blank
import BurnAfterRead.Text.Numeral

/-!
# Lengths of time

A `Duration` is a length of time, a `Span` a signed one, both counted in nanoseconds. Durations
are written in a compact form: numbers with the units `d`, `h`, `m`, `s` and `ms`, such as `1h30m`.
`Duration.format` writes each unit once and from the largest down; `Span.parse` reads the terms in
any order and adds them up.
-/

namespace BurnAfterRead

/-- A length of time in nanoseconds. -/
structure Duration where
  nanos : Nat
  deriving DecidableEq, Repr, Inhabited

/-- A signed length of time in nanoseconds. -/
structure Span where
  nanos : Int
  deriving DecidableEq, Repr, Inhabited

namespace Duration

/-- Nanoseconds of a second. -/
def nanosPerSecond : Nat := 1000000000

/-- Nanoseconds of a millisecond. -/
def nanosPerMilli : Nat := 1000000

/-- Milliseconds of a day. -/
def milliPerDay : Nat := 86400000

def ofMillis (ms : Nat) : Duration := ⟨ms * nanosPerMilli⟩

def ofSeconds (s : Nat) : Duration := ⟨s * nanosPerSecond⟩

def ofDays (d : Nat) : Duration := ofMillis (d * milliPerDay)

/-- The whole milliseconds of a duration. -/
def millis (d : Duration) : Nat := d.nanos / nanosPerMilli

def isZero (d : Duration) : Bool := d.nanos == 0

/-- The duration as a signed length; lengths of more than 2⁶³ - 1 milliseconds have none. -/
def toSpan? (d : Duration) : Option Span :=
  if d.nanos ≤ Text.maxInt64 * nanosPerMilli then some ⟨d.nanos⟩ else none

end Duration

namespace Span

def ofMillis (ms : Int) : Span := ⟨ms * 1000000⟩

/-- The whole milliseconds of a span, cut toward zero. -/
def millis (s : Span) : Int := s.nanos.tdiv 1000000

end Span

/-- Why a text is not a duration. -/
inductive DurationFault where
  | empty
  | numberExpected
  | unitMissing
  | numberTooLarge
  | unitUnknown
  | sumTooLarge
  | negative
  deriving DecidableEq, Repr

namespace DurationFault

def reason : DurationFault → String
  | empty => "empty duration"
  | numberExpected => "expected a number"
  | unitMissing => "missing unit (ms, s, m, h, d)"
  | numberTooLarge => "number part is not valid"
  | unitUnknown => "unknown unit, use ms, s, m, h, or d"
  | sumTooLarge => "duration is too large"
  | negative => "duration cannot be negative"

/-- A faulty duration is a fault of the request that holds it, and is quoted as it was given. -/
def toFailure (input : String) (fault : DurationFault) : Failure :=
  .invalidRequest ("invalid duration '" ++ input ++ "': " ++ fault.reason)

end DurationFault

/-- The milliseconds of a unit. -/
def unitMillis? : List Char → Option Nat
  | ['m', 's'] => some 1
  | ['s'] => some 1000
  | ['m'] => some 60000
  | ['h'] => some 3600000
  | ['d'] => some 86400000
  | _ => none

theorem length_dropWhile_dropWhile_lt {p q : Char → Bool} {cs : List Char}
    (h : cs.takeWhile p ≠ []) : ((cs.dropWhile p).dropWhile q).length < cs.length := by
  have hp := congrArg List.length (List.takeWhile_append_dropWhile (p := p) (l := cs))
  have hq := congrArg List.length
    (List.takeWhile_append_dropWhile (p := q) (l := cs.dropWhile p))
  have := List.length_pos_iff.2 h
  simp only [List.length_append] at hp hq
  omega

/-- Reads terms, each a number with a unit, and adds their milliseconds to `total`. Numbers and
sums stay below 2⁶³. -/
def readTerms (total : Nat) (cs : List Char) : Except DurationFault Nat :=
  if cs = [] then .ok total
  else
    let digits := cs.takeWhile Char.isDigit
    let tail := cs.dropWhile Char.isDigit
    if _h : digits = [] then .error .numberExpected
    else
      let unit := tail.takeWhile Char.isAlpha
      if unit = [] then .error .unitMissing
      else if Text.digitsValue digits > Text.maxInt64 then .error .numberTooLarge
      else
        match unitMillis? unit with
        | none => .error .unitUnknown
        | some size =>
          let sum := total + Text.digitsValue digits * size
          if sum > Text.maxInt64 then .error .sumTooLarge
          else readTerms sum (tail.dropWhile Char.isAlpha)
termination_by cs.length
decreasing_by exact length_dropWhile_dropWhile_lt _h

/-- Reads an unsigned duration in milliseconds: `0`, or one or more terms. -/
def readMillis (body : List Char) : Except DurationFault Nat :=
  if body = [] then .error .empty
  else if body = ['0'] then .ok 0
  else readTerms 0 body

/-- Reads a duration in milliseconds with one optional sign. -/
def readSignedMillis (cs : List Char) : Except DurationFault Int :=
  match Text.trim cs with
  | '-' :: body => (readMillis body).map fun ms => -(ms : Int)
  | '+' :: body => (readMillis body).map Int.ofNat
  | body => (readMillis body).map Int.ofNat

namespace Span

/-- Reads a signed duration. -/
def parse (input : String) : Except Failure Span :=
  match readSignedMillis input.toList with
  | .ok ms => .ok (ofMillis ms)
  | .error fault => .error (fault.toFailure input)

end Span

namespace Duration

/-- Reads a duration that is not negative. -/
def parse (input : String) : Except Failure Duration :=
  match readSignedMillis input.toList with
  | .ok ms => if ms < 0 then .error (DurationFault.negative.toFailure input) else .ok (ofMillis ms.toNat)
  | .error fault => .error (fault.toFailure input)

/-- One term of a written duration; a unit that occurs no time is left out. -/
def term (count : Nat) (unit : String) : String :=
  if count = 0 then "" else toString count ++ unit

/-- Writes the whole milliseconds of a duration. -/
def format (d : Duration) : String :=
  let ms := d.millis
  if ms = 0 then "0s"
  else
    term (ms / 86400000) "d" ++ term (ms / 3600000 % 24) "h" ++ term (ms / 60000 % 60) "m" ++
      term (ms / 1000 % 60) "s" ++ term (ms % 1000) "ms"

/-- A number with a fraction of `width` digits, without its trailing zeros. -/
def withFraction (whole fraction width : Nat) : List Char :=
  let places := ((Text.padded width fraction).reverse.dropWhile (· == '0')).reverse
  if places = [] then Text.decimal whole else Text.decimal whole ++ '.' :: places

/-- A duration in diagnostics: a decimal number of the largest unit that is not longer than it. -/
def diagnostic (d : Duration) : String :=
  let n := d.nanos
  if n ≥ 1000000000 then
    String.ofList (withFraction (n / 1000000000) (n % 1000000000) 9 ++ ['s'])
  else if n ≥ 1000000 then String.ofList (withFraction (n / 1000000) (n % 1000000) 6 ++ ['m', 's'])
  else if n ≥ 1000 then String.ofList (withFraction (n / 1000) (n % 1000) 3 ++ ['µ', 's'])
  else String.ofList (Text.decimal n ++ ['n', 's'])

end Duration

end BurnAfterRead
