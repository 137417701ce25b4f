import BurnAfterRead.Secret.Service

/-!
# Random draws

All that is random about the answer to one request, and how it is taken from random bytes.
-/

namespace BurnAfterRead.Http

/-- The random draws of one request: those of a new secret, the letters of a random string, and an
identifier for a request that brings none. -/
structure Draws where
  chance : Chance
  letters : Nat → Nat
  requestId : BitVec 128

namespace Draws

/-- The number whose bytes these are, the highest first. -/
def number (bytes : List UInt8) : Nat := bytes.foldl (fun n b => 256 * n + b.toNat) 0

/-- The number of the bytes from one place on. -/
def numberAt (bytes : Array UInt8) (start length : Nat) : Nat :=
  number (bytes.extract start (start + length)).toList

/-- How many bytes hold the letter of a random string. -/
def letterSize : Nat := 8

/-- How many bytes hold the draws of a request, for a string of `length` letters. -/
def size (length : Nat) : Nat := 12 + 16 + 16 + letterSize * length

/-- The draws that some bytes hold. -/
def ofBytes (bytes : Array UInt8) : Draws where
  chance := ⟨Vector.ofFn fun i => bytes.getD i.val 0, BitVec.ofNat 128 (numberAt bytes 12 16)⟩
  letters i := numberAt bytes (44 + letterSize * i) letterSize
  requestId := BitVec.ofNat 128 (numberAt bytes 28 16)

end Draws

end BurnAfterRead.Http
