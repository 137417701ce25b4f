import BurnAfterRead.Crypto.Token
import BurnAfterRead.Dialogue
import BurnAfterRead.Secret.Basic
import BurnAfterRead.Store.Command

/-!
# Burn after reading

The service seals plaintexts before they reach the store, opens them after they leave it, and
removes a secret with its first successful reading. Each call is a dialogue of store commands and
readings of the clock. A read removes the record only after the plaintext was opened, and gives the
plaintext out only after the store has told that this very call removed the record.
-/

namespace BurnAfterRead

/-- What a call asks: the time, or something of the store. -/
inductive Query where
  | now
  | store (c : Command)
  deriving DecidableEq, Repr

def Query.Answer : Query → Type
  | now => Instant
  | store c => c.Reply

/-- The course of a call. -/
abbrev Call (α : Type) : Type := Dialogue Query Query.Answer α

/-- The random bits of a new secret: the nonce of its token, and those of its identifier. -/
structure Chance where
  nonce : Crypto.Nonce
  random : BitVec 128

namespace Repository

/-- Whether `r` is gone at `now` or gives its plaintext under a key. -/
def reveal (r : Record) (key : String) : Except Failure Secret :=
  match Crypto.decrypt r.value key with
  | .error f => .error f
  | .ok plaintext =>
    match Crypto.utf8Text? plaintext with
    | some value => .ok { id := r.id, value := value, expiresAt := some r.expiresAt }
    | none => .error .decryptionFailed

/-- Looks up a secret and opens it. A record past its expiry counts as absent: it is removed on the
spot, whether or not that succeeds, and no key is tried on it. -/
def get (id key : String) : Call (Except Failure Secret) :=
  .ask (.store (.find id)) fun
    | .error f => .done (.error f)
    | .ok r => .ask .now fun now =>
      if r.isExpired now then
        .ask (.store (.remove id)) fun _ => .done (.error .secretNotFound)
      else .done (reveal r key)

/-- Seals a plaintext and stores it. -/
def create (chance : Chance) (value key : String) (expiresAt : Instant) :
    Call (Except Failure Secret) :=
  match Crypto.encrypt chance.nonce (Crypto.utf8 value) key with
  | .error f => .done (.error f)
  | .ok token =>
    .ask (.store (.insert ⟨token, expiresAt, chance.random⟩)) fun answer =>
      .done (answer.map fun r => { id := r.id, expiresAt := some r.expiresAt })

def delete (id : String) : Call (Except Failure Unit) := .ask (.store (.remove id)) .done

def deleteExpired : Call (Except Failure Nat) := .ask (.store .sweep) .done

def close : Call (Except Failure Unit) := .ask (.store .close) .done

end Repository

/-- The service: the key of secrets without a passphrase, and the lifetime of those that ask for
none. -/
structure Service where
  key : String
  defaultTtl : Span
  deriving DecidableEq, Repr

namespace Service

/-- The lifetime of secrets where the service is told none: seven days. -/
def standardTtl : Duration := .ofDays 7

/-- A service with the standard lifetime; its key cannot be empty. -/
def new (key : String) : Except Failure Service :=
  if key = "" then .error (.badConfiguration "the service needs a non-empty encryption key")
  else .ok ⟨key, ⟨standardTtl.nanos⟩⟩

/-- Sets the default lifetime, which has to lead to a point in time. -/
def withDefaultTtl (s : Service) (ttl : Duration) (now : Instant) : Except Failure Service :=
  match ttl.toSpan? with
  | none => .error (.badConfiguration "default TTL is out of range")
  | some span =>
    match now.plus? span with
    | none => .error (.badConfiguration "default TTL is out of range")
    | some _ => .ok { s with defaultTtl := span }

/-- A service of a key and a default lifetime. -/
def configured (key : String) (ttl : Duration) (now : Instant) : Except Failure Service :=
  (new key).bind fun s => s.withDefaultTtl ttl now

/-- A plaintext has at least one character and not too many. -/
def checkValue (value : String) : Except Failure Unit :=
  if value = "" then .error (.invalidRequest "value is required")
  else if value.length > Secret.maxValueLength then
    .error (.invalidRequest ("value exceeds " ++ toString Secret.maxValueLength ++ " characters"))
  else .ok ()

/-- The time at which a lifetime that begins now ends. -/
def expiryAfter (ttl : Span) (now : Instant) : Except Failure Instant :=
  match now.plus? ttl with
  | some t => .ok t
  | none => .error (.invalidRequest "ttl is out of range")

/-- The key of a secret: its passphrase, or the service's key if that is missing or empty. -/
def keyFor (s : Service) : Option String → String
  | some passphrase => if passphrase = "" then s.key else passphrase
  | none => s.key

/-- Stores a secret. Its expiry is the one that was asked for, or else follows from the lifetime
that was asked for, or else from the default lifetime. -/
def create (s : Service) (chance : Chance) (secret : Secret) : Call (Except Failure Secret) :=
  match checkValue secret.value with
  | .error f => .done (.error f)
  | .ok () =>
    let key := s.keyFor secret.passphrase
    match secret.expiresAt with
    | some expiresAt => Repository.create chance secret.value key expiresAt
    | none => .ask .now fun now =>
      match expiryAfter (secret.ttl.getD s.defaultTtl) now with
      | .error f => .done (.error f)
      | .ok expiresAt => Repository.create chance secret.value key expiresAt

/-- Opens a secret and removes it; `result` is what is given out of it once it is removed. -/
def take {α : Type} (s : Service) (id : String) (passphrase : Option String) (result : Secret → α) :
    Call (Except Failure α) :=
  (Repository.get id (s.keyFor passphrase)).andThen fun
    | .error f => .done (.error f)
    | .ok secret => .ask (.store (.remove id)) fun
      | .error f => .done (.error f)
      | .ok () => .done (.ok (result secret))

/-- Redeems a secret. With a wrong passphrase the secret stays. -/
def get (s : Service) (id : String) (passphrase : Option String) : Call (Except Failure Secret) :=
  s.take id passphrase fun secret => secret

/-- Burns a secret unread; only a caller who could read it may do so. -/
def delete (s : Service) (id : String) (passphrase : Option String) : Call (Except Failure Unit) :=
  s.take id passphrase fun _ => ()

/-- Removes the expired secrets and tells their number. -/
def deleteExpired : Call (Except Failure Nat) :=
  Repository.deleteExpired.andThen fun
    | .error .nothingSwept => .done (.ok 0)
    | answer => .done answer

def close : Call (Except Failure Unit) := Repository.close

end Service

end BurnAfterRead
