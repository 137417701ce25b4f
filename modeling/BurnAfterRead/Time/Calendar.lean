/-!
# The Gregorian calendar

Days are counted from 1970-01-01, in the calendar extended to all years before and after. The year
of a day is estimated from the mean length of a year and corrected by at most one.
-/

namespace BurnAfterRead.Calendar

/-- A day by its year, month and day of the month. -/
structure Date where
  year : Int
  month : Nat
  day : Nat
  deriving DecidableEq, Repr

def isLeap (year : Int) : Bool := year % 4 = 0 && (year % 100 ≠ 0 || year % 400 = 0)

/-- Days from 1970-01-01 to the first day of a year. -/
def daysBeforeYear (year : Int) : Int :=
  let y := year - 1
  365 * y + y / 4 - y / 100 + y / 400 - 719162

/-- The lengths of the months. -/
def monthLengths (leap : Bool) : List Nat :=
  [31, if leap then 29 else 28, 31, 30, 31, 30, 31, 31, 30, 31, 30, 31]

/-- The number of days in a month, zero for a month that does not exist. -/
def daysInMonth (year : Int) (month : Nat) : Nat :=
  if month = 0 then 0 else (monthLengths (isLeap year)).getD (month - 1) 0

/-- The year that a day lies in. -/
def yearOfDay (day : Int) : Int :=
  let guess := (400 * (day + 719162)) / 146097 + 1
  if day < daysBeforeYear guess then guess - 1
  else if daysBeforeYear (guess + 1) ≤ day then guess + 1
  else guess

/-- Walks through the lengths of months to the one that holds the day, both counted from zero. -/
def monthOfDay : List Nat → Nat → Nat × Nat
  | [], day => (0, day)
  | length :: rest, day =>
    if day < length then (0, day)
    else
      let p := monthOfDay rest (day - length)
      (p.1 + 1, p.2)

/-- The date of a day. -/
def dateOfDay (day : Int) : Date :=
  let year := yearOfDay day
  let p := monthOfDay (monthLengths (isLeap year)) (day - daysBeforeYear year).toNat
  ⟨year, p.1 + 1, p.2 + 1⟩

/-- Whether the date exists. -/
def Date.isValid (d : Date) : Bool :=
  1 ≤ d.month && d.month ≤ 12 && 1 ≤ d.day && d.day ≤ daysInMonth d.year d.month

/-- The day of a date. -/
def Date.toDay (d : Date) : Int :=
  let before : Nat := ((monthLengths (isLeap d.year)).take (d.month - 1)).foldr (· + ·) 0
  daysBeforeYear d.year + before + (d.day - 1)

end BurnAfterRead.Calendar
