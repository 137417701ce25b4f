import BurnAfterRead.Http.MediaType
import BurnAfterRead.Http.Request
import BurnAfterRead.Json.Reader
import BurnAfterRead.Secret.Basic

/-!
# Requests for a new secret

The body of a request for a new secret is a JSON record of a value, a passphrase and a lifetime, each
of which may be missing. What makes a secret of it: the value has to be there, an empty passphrase is
none, and a lifetime is positive and at most a year.
-/

namespace BurnAfterRead.Http

structure SecretRequest where
  value : Option String := none
  passphrase : Option String := none
  ttl : Option String := none
  deriving DecidableEq, Repr

namespace SecretRequest

/-- The most bytes that a body has. -/
def maxBodySize : Nat := 2097152

/-- The longest lifetime that a client may ask for: 365 days. -/
def maxTtl : Span := ⟨(Duration.ofDays 365).nanos⟩

/-- A body that is not what it should be. -/
def malformed (detail : String) : Failure := .invalidRequest ("malformed body: " ++ detail)

/-- The failure of a body that is not a record. -/
def ofFault : Json.Fault → Failure
  | .malformed => malformed "Failed to parse the request body as JSON: the text is not JSON"
  | .mismatched =>
    malformed
      "Failed to deserialize the JSON body into the target type: not a record of optional texts"

/-- Reads the fields of a body; what follows the record is not looked at. -/
def ofBytes (body : List UInt8) : Except Failure SecretRequest :=
  match Json.readRecord ["value", "passphrase", "ttl"] true (Json.source body) with
  | .error fault => .error (ofFault fault)
  | .ok (fields, _) => .ok ⟨fields.get "value", fields.get "passphrase", fields.get "ttl"⟩

/-- Reads the body of a request, which has to be announced as JSON. -/
def ofRequest (r : Request) : Except Failure SecretRequest :=
  if r.headers.announceJson then
    if r.body.length ≤ maxBodySize then ofBytes r.body
    else .error (malformed "Failed to buffer the request body: length limit exceeded")
  else .error (malformed "Expected request with `Content-Type: application/json`")

/-- A field that is there and not empty. -/
def filled? (field : Option String) : Option String := field.filter (· ≠ "")

/-- Reads a lifetime. -/
def readTtl (text : String) : Except Failure Span :=
  match Span.parse text with
  | .error f => .error f
  | .ok ttl =>
    if ttl.nanos ≤ 0 then .error (.invalidRequest "ttl must be positive")
    else if maxTtl.nanos < ttl.nanos then .error (.invalidRequest "ttl must be at most 365d")
    else .ok ttl

/-- The lifetime that is asked for, if any. -/
def lifetime (r : SecretRequest) : Except Failure (Option Span) :=
  match filled? r.ttl with
  | some text => (readTtl text).map some
  | none => .ok none

/-- The secret that is asked for. -/
def toSecret (r : SecretRequest) : Except Failure Secret :=
  match filled? r.value with
  | none => .error (.invalidRequest "value is required")
  | some value =>
    r.lifetime.map fun ttl => { value := value, passphrase := filled? r.passphrase, ttl := ttl }

end SecretRequest

end BurnAfterRead.Http
