/-!
# Random display strings

Strings for people to use as passwords, drawn letter by letter from an alphabet by a stream of
random numbers.
-/

namespace BurnAfterRead.Crypto

/-- The longest string that is generated; a longer request gets this length. -/
def maxGeneratedLength : Nat := 512

/-- The ASCII letters. -/
def letters : List Char := "abcdefghijklmnopqrstuvwxyzABCDEFGHIJKLMNOPQRSTUVWXYZ".toList

/-- What the alphabet holds besides letters, on request. -/
def specialCharacters : List Char := "_-!?=()&%".toList

def alphabet (special : Bool) : List Char :=
  if special then letters ++ specialCharacters else letters

/-- The alphabet's character of a random number; every number has one. -/
def pick (special : Bool) (draw : Nat) : Char :=
  let abc := alphabet special
  abc.getD (draw % abc.length) 'a'

/-- A string of `length` characters from the first numbers of the stream `draws`. -/
def generate (length : Nat) (special : Bool) (draws : Nat → Nat) : String :=
  String.ofList ((List.range (min length maxGeneratedLength)).map fun i => pick special (draws i))

end BurnAfterRead.Crypto
