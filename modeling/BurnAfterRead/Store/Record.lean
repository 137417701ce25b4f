import BurnAfterRead.Failure
import BurnAfterRead.Id.Uuid
import BurnAfterRead.Time.Instant

/-!
# Stored records

What a store keeps of a secret: an identifier of its own making, an encryption token, and the time
from which the record counts as gone.
-/

namespace BurnAfterRead

structure Record where
  id : String
  /-- An encryption token, never a plaintext. -/
  value : String
  expiresAt : Instant
  deriving DecidableEq, Repr

/-- A record about to be stored, and the random bits that its identifier is made of. -/
structure Draft where
  value : String
  expiresAt : Instant
  random : BitVec 128
  deriving DecidableEq, Repr

/-- The record of a draft in a store whose identifiers are UUIDs. -/
def Draft.record (draft : Draft) : Record :=
  ⟨(Uuid.ofRandom draft.random).text, draft.value, draft.expiresAt⟩

namespace Record

/-- A record is expired from its expiry on. -/
def isExpired (r : Record) (now : Instant) : Bool := r.expiresAt.notAfter now

end Record

/-- A removal that found no record is a failure. -/
def removedOne (count : Nat) : Except Failure Unit :=
  if count = 0 then .error .secretNotFound else .ok ()

/-- A sweep that removed nothing is a failure. -/
def removedSome (count : Nat) : Except Failure Nat :=
  if count = 0 then .error .nothingSwept else .ok count

end BurnAfterRead
