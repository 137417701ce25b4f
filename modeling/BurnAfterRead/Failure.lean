/-!
# Failures

The ways in which a call can fail, the text each is logged with, and what a client is told about
it: a status and a fixed message. Only a request that was itself at fault gets its own text back.
-/

namespace BurnAfterRead

/-- Why a call failed. -/
inductive Failure where
  /-- Unknown, already redeemed or expired: one cause, so that a client cannot tell them apart. -/
  | secretNotFound
  /-- A sweep found nothing to remove. -/
  | nothingSwept
  /-- A wrong key, or a damaged token. -/
  | decryptionFailed
  /-- The request breaks a rule that the client can mend. -/
  | invalidRequest (reason : String)
  /-- The client's bucket is empty. -/
  | tooManyRequests (retryAfter : Nat)
  /-- A value could not be sealed. -/
  | encryptionFailed (detail : String)
  /-- The storage engine refused, or cannot be reached. -/
  | storageUnavailable (detail : String)
  /-- A storage call took longer than it may. -/
  | timeout
  /-- No storage driver has this name. -/
  | unsupportedDriver (name : String)
  /-- The settings are at fault. -/
  | badConfiguration (detail : String)
  /-- A file or socket could not be used. -/
  | io (detail : String)
  /-- A stored record does not have the shape of a record. -/
  | badRecord (detail : String)
  deriving DecidableEq, Repr, Inhabited

namespace Failure

/-- The text of a failure for logs and the terminal. -/
def message : Failure → String
  | secretNotFound => "secret not found"
  | nothingSwept => "no secrets deleted"
  | decryptionFailed => "decryption failed: wrong passphrase or corrupted data"
  | invalidRequest reason => "invalid request: " ++ reason
  | tooManyRequests retryAfter => "too many requests, retry after " ++ toString retryAfter ++ "s"
  | encryptionFailed detail => "encryption failed: " ++ detail
  | storageUnavailable detail => "storage unavailable: " ++ detail
  | timeout => "storage operation timed out"
  | unsupportedDriver name => "unsupported database driver: " ++ name
  | badConfiguration detail => "config error: " ++ detail
  | io detail => "IO error: " ++ detail
  | badRecord detail => "serialization error: " ++ detail

/-- The status a client is answered with. -/
def status : Failure → Nat
  | secretNotFound => 404
  | decryptionFailed => 401
  | invalidRequest _ => 400
  | tooManyRequests _ => 429
  | _ => 500

/-- The message a client is answered with. Details of the service never leave it. -/
def clientMessage : Failure → String
  | secretNotFound => "secret not found"
  | decryptionFailed => "invalid passphrase"
  | invalidRequest reason => "invalid request: " ++ reason
  | tooManyRequests _ => "too many requests"
  | _ => "internal server error"

/-- How long the client is asked to wait, in seconds. -/
def retryAfter? : Failure → Option Nat
  | tooManyRequests retryAfter => some retryAfter
  | _ => none

end Failure

end BurnAfterRead
