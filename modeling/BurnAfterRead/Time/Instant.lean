import BurnAfterRead.Time.Duration

/-!
# Points in time

An instant counts whole seconds of universal time since 1970 and the nanoseconds within the second.
A leap second is written as the second before it with a thousand million nanoseconds or more, so
that it falls between its neighbours. Instants range over the years -262143 to 262142.
-/

namespace BurnAfterRead

structure Instant where
  /-- Whole seconds since 1970-01-01, leap seconds not counted. -/
  seconds : Int
  /-- Nanoseconds within the second; more than a second's worth within a leap second. -/
  nanos : Nat
  deriving DecidableEq, Repr, Inhabited

namespace Instant

/-- The first second of the year -262143. -/
def minSeconds : Int := -8334601228800

/-- The last second of the year 262142. -/
def maxSeconds : Int := 8210266876799

def inRange (t : Instant) : Bool := minSeconds ≤ t.seconds && t.seconds ≤ maxSeconds

/-- Whether the first instant comes before the second. -/
def before (a b : Instant) : Bool :=
  a.seconds < b.seconds || (a.seconds = b.seconds && a.nanos < b.nanos)

/-- Whether the first instant is the second or comes before it. -/
def notAfter (a b : Instant) : Bool := !b.before a

def isLeapSecond (t : Instant) : Bool := 1000000000 ≤ t.nanos

/-- The instant of a number of nanoseconds since 1970. -/
def ofNanos (n : Int) : Instant := ⟨n / 1000000000, (n % 1000000000).toNat⟩

/-- The instant of a number of milliseconds since 1970. -/
def ofMillis (ms : Int) : Instant := ofNanos (ms * 1000000)

/-- The instant of a number of milliseconds since 1970, if it is in range. -/
def ofMillis? (ms : Int) : Option Instant :=
  if (ofMillis ms).inRange then some (ofMillis ms) else none

/-- Nanoseconds since 1970. -/
def toNanos (t : Instant) : Int := t.seconds * 1000000000 + t.nanos

/-- Milliseconds since 1970, cut toward the past. -/
def millis (t : Instant) : Int := t.seconds * 1000 + (t.nanos / 1000000 : Nat)

/-- The instant cut to a multiple of `step` nanoseconds within its second. -/
def cut (t : Instant) (step : Nat) : Instant := ⟨t.seconds, t.nanos / step * step⟩

/-- The instant that lies a span after another one. A span that stays within a leap second counts
from its start; any other leaves it. -/
def plus (t : Instant) (s : Span) : Instant :=
  let wholeSeconds := s.nanos.tdiv 1000000000
  let rest := s.nanos.tmod 1000000000
  if t.isLeapSecond then
    if wholeSeconds > 0 ∨ (rest > 0 ∧ (t.nanos : Int) ≥ 2000000000 - rest) then
      ofNanos (t.seconds * 1000000000 + (t.nanos - 1000000000 : Nat) + s.nanos)
    else if wholeSeconds < 0 then
      ofNanos ((t.seconds + 1) * 1000000000 + (t.nanos - 1000000000 : Nat) + s.nanos)
    else ⟨t.seconds, (t.nanos + rest).toNat⟩
  else ofNanos (t.toNanos + s.nanos)

/-- The instant that lies a span after another one, if it is in range. -/
def plus? (t : Instant) (s : Span) : Option Instant :=
  let u := t.plus s
  if u.inRange then some u else none

/-- The second of the day. -/
def secondOfDay (t : Instant) : Int := t.seconds % 86400

/-- The span from `b` to `a`. A leap second that lies between them by the time of day counts. -/
def since (a b : Instant) : Span :=
  let leap : Int :=
    if a.secondOfDay > b.secondOfDay ∧ b.isLeapSecond then 1
    else if a.secondOfDay < b.secondOfDay ∧ a.isLeapSecond then -1
    else 0
  ⟨(a.seconds - b.seconds + leap) * 1000000000 + ((a.nanos : Int) - b.nanos)⟩

end Instant

end BurnAfterRead
