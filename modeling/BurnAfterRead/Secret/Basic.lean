import BurnAfterRead.Text.Diagnostic
import BurnAfterRead.Time.Timestamp

/-!
# Secrets

A secret as callers see it. On the way in it holds a plaintext and wishes about its passphrase and
lifetime; a secret that was stored is answered with its identifier and expiry only, and one that was
read with its plaintext as well. Diagnostics never show the plaintext or the passphrase.
-/

namespace BurnAfterRead

structure Secret where
  id : String := ""
  value : String := ""
  passphrase : Option String := none
  /-- The lifetime that is asked for; a negative one makes a secret that has expired already. -/
  ttl : Option Span := none
  expiresAt : Option Instant := none
  deriving DecidableEq, Repr, Inhabited

namespace Secret

/-- The most characters that a plaintext has. -/
def maxValueLength : Nat := 5000

/-- What diagnostics show in place of a plaintext or a passphrase. -/
def redacted : String := Diagnostic.quoted "<redacted>"

/-- A lifetime in diagnostics. -/
def showSpan (s : Span) : String :=
  Diagnostic.record "TimeDelta"
    [("secs", toString (s.nanos / 1000000000)), ("nanos", toString (s.nanos % 1000000000))]

/-- A secret in diagnostics. -/
def diagnostic (s : Secret) : String :=
  Diagnostic.record "Secret"
    [("id", Diagnostic.quoted s.id),
      ("value", redacted),
      ("passphrase", Diagnostic.optional (s.passphrase.map fun _ => redacted)),
      ("ttl", Diagnostic.optional (s.ttl.map showSpan)),
      ("expires_at", Diagnostic.optional (s.expiresAt.map Instant.text))]

end Secret

end BurnAfterRead
