import BurnAfterRead.Text.Split
import BurnAfterRead.Time.Calendar
import BurnAfterRead.Time.Instant

/-!
# Timestamps

The text of an instant: `2030-01-02T03:04:05.678Z`. The fraction has no, three, six or nine digits,
the fewest that are exact; years outside 0 to 9999 have a sign and at least four digits. The reader
is lenient: it takes blanks between the parts, short fields, a blank for the `T`, either letter
case, and any offset from universal time.
-/

namespace BurnAfterRead

/-- What stands between the date and the time of day, and after it. -/
structure TimestampStyle where
  separator : Char
  zone : List Char

/-- The style of messages. -/
def TimestampStyle.internet : TimestampStyle := ⟨'T', ['Z']⟩

/-- The style of text columns, where universal time is understood. -/
def TimestampStyle.column : TimestampStyle := ⟨' ', []⟩

namespace Timestamp

/-- The text of a year. -/
def yearText (year : Int) : List Char :=
  if 0 ≤ year ∧ year ≤ 9999 then Text.padded 4 year.toNat
  else if year < 0 then '-' :: Text.padded 4 year.natAbs
  else '+' :: Text.padded 4 year.toNat

/-- The text of the nanoseconds within a second. -/
def fractionText (nanos : Nat) : List Char :=
  if nanos = 0 then []
  else if nanos % 1000000 = 0 then '.' :: Text.padded 3 (nanos / 1000000)
  else if nanos % 1000 = 0 then '.' :: Text.padded 6 (nanos / 1000)
  else '.' :: Text.padded 9 nanos

/-- The text of a date. -/
def dateText (d : Calendar.Date) : List Char :=
  yearText d.year ++ '-' :: Text.padded 2 d.month ++ '-' :: Text.padded 2 d.day

/-- The text of a second of the day. -/
def clockText (second : Nat) (leap : Bool) : List Char :=
  Text.padded 2 (second / 3600) ++ ':' :: Text.padded 2 (second / 60 % 60) ++
    ':' :: Text.padded 2 (second % 60 + (if leap then 1 else 0))

/-- Writes an instant. -/
def write (style : TimestampStyle) (t : Instant) : List Char :=
  dateText (Calendar.dateOfDay (t.seconds / 86400)) ++ style.separator ::
    clockText t.secondOfDay.toNat t.isLeapSecond ++ fractionText (t.nanos % 1000000000) ++ style.zone

/-- Reads one to `width` digits after blanks. -/
def readNumber? (width : Nat) (cs : List Char) : Option (Nat × List Char) :=
  let cs := Text.trimStart cs
  let ds := (cs.take width).takeWhile Char.isDigit
  if ds = [] then none else some (Text.digitsValue ds, cs.drop ds.length)

/-- Reads a year: four digits at most, or any number of them after a sign. -/
def readYear? (cs : List Char) : Option (Int × List Char) :=
  match Text.trimStart cs with
  | '-' :: rest =>
    let ds := rest.takeWhile Char.isDigit
    if ds = [] then none else some (-(Text.digitsValue ds : Int), rest.drop ds.length)
  | '+' :: rest =>
    let ds := rest.takeWhile Char.isDigit
    if ds = [] then none else some ((Text.digitsValue ds : Int), rest.drop ds.length)
  | rest => (readNumber? 4 rest).map fun p => ((p.1 : Int), p.2)

/-- Reads a mark after blanks. -/
def readMark? (mark : Char) (cs : List Char) : Option (List Char) :=
  match Text.trimStart cs with
  | c :: rest => if c = mark then some rest else none
  | [] => none

/-- Reads a fraction of a second if there is one; digits after the ninth count for nothing. -/
def readFraction? : List Char → Option (Nat × List Char)
  | '.' :: cs =>
    let ds := (cs.take 9).takeWhile Char.isDigit
    if ds = [] then none
    else
      some (Text.digitsValue ds * Nat.pow 10 (9 - ds.length), (cs.drop ds.length).dropWhile Char.isDigit)
  | cs => some (0, cs)

/-- Reads the minutes of an offset. -/
def readOffsetMinutes? : List Char → Option (Nat × List Char)
  | a :: b :: rest =>
    if a.isDigit ∧ b.isDigit then
      let minutes := Text.digitsValue [a, b]
      if minutes < 60 then some (minutes, rest) else none
    else none
  | _ => none

/-- Reads an offset of hours and minutes without its sign, in seconds. -/
def readOffset? : List Char → Option (Nat × List Char)
  | a :: b :: rest =>
    if a.isDigit ∧ b.isDigit then do
      let (minutes, rest) ← readOffsetMinutes? (rest.dropWhile fun c => c = ':' || Text.isBlank c)
      some (Text.digitsValue [a, b] * 3600 + minutes * 60, rest)
    else none
  | _ => none

/-- Reads the offset from universal time in seconds: `Z`, `UTC`, or signed hours and minutes. -/
def readZone? (cs : List Char) : Option (Int × List Char) :=
  match Text.trimStart cs with
  | [] => none
  | c :: rest =>
    if Text.lower ((c :: rest).take 3) = ['u', 't', 'c'] then some (0, rest.drop 2)
    else if c = 'Z' ∨ c = 'z' then some (0, rest)
    else if c = '+' then (readOffset? rest).map fun p => ((p.1 : Int), p.2)
    else if c = '-' ∨ c = '\u2212' then (readOffset? rest).map fun p => (-(p.1 : Int), p.2)
    else none

/-- Reads an instant. -/
def read? (cs : List Char) : Option Instant := do
  let (year, cs) ← readYear? cs
  let (month, cs) ← readNumber? 2 (← readMark? '-' cs)
  let (day, cs) ← readNumber? 2 (← readMark? '-' cs)
  let cs ← match cs with
    | c :: rest => if c = 'T' ∨ c = 't' ∨ c = ' ' then some rest else none
    | [] => none
  let (hour, cs) ← readNumber? 2 cs
  let (minute, cs) ← readNumber? 2 (← readMark? ':' cs)
  let (second, cs) ← readNumber? 2 (← readMark? ':' cs)
  let (nanos, cs) ← readFraction? cs
  let (offset, cs) ← readZone? cs
  let date : Calendar.Date := ⟨year, month, day⟩
  if Text.trimStart cs = [] ∧ date.isValid ∧ -262143 ≤ year ∧ year ≤ 262142 ∧ hour < 24 ∧
      minute < 60 ∧ second ≤ 60 ∧ offset.natAbs < 86400 then
    let local_ := date.toDay * 86400 + (hour * 3600 + minute * 60 + min second 59 : Nat)
    let t : Instant := ⟨local_ - offset, if second = 60 then nanos + 1000000000 else nanos⟩
    if t.inRange then some t else none
  else none

/-- Reads what `write` gives in the style of text columns. -/
def readColumn? (cs : List Char) : Option Instant := read? (cs ++ ['Z'])

end Timestamp

namespace Instant

/-- The text of an instant in messages. -/
def text (t : Instant) : String := String.ofList (Timestamp.write .internet t)

end Instant

end BurnAfterRead
