import BurnAfterRead.Text.Hex
import BurnAfterRead.Text.Numeral

/-!
# Writing JSON

Flat objects of numbers and texts, written without blanks and in the order of their members. Within
a text only the quote, the backslash and the control characters are escaped.
-/

namespace BurnAfterRead.Json

/-- What follows the backslash for a character that has to be escaped. -/
def escape? (c : Char) : Option (List Char) :=
  if c = '"' then some ['"']
  else if c = '\\' then some ['\\']
  else if c = '\n' then some ['n']
  else if c = '\r' then some ['r']
  else if c = '\t' then some ['t']
  else if c = '\x08' then some ['b']
  else if c = '\x0c' then some ['f']
  else if c.toNat < 32 then
    some ['u', '0', '0', Text.hexDigit (c.toNat / 16), Text.hexDigit (c.toNat % 16)]
  else none

/-- The text between the quotes. -/
def escaped : List Char → List Char
  | [] => []
  | c :: cs =>
    match escape? c with
    | some e => '\\' :: e ++ escaped cs
    | none => c :: escaped cs

/-- A text in quotes. -/
def quote (cs : List Char) : List Char := '"' :: escaped cs ++ ['"']

/-- What a member of an object holds. -/
inductive Scalar where
  | number (n : Nat)
  | text (s : String)
  deriving DecidableEq, Repr

def Scalar.write : Scalar → List Char
  | number n => Text.decimal n
  | text s => quote s.toList

/-- The members of an object, separated by commas. -/
def writeMembers : List (String × Scalar) → List Char
  | [] => []
  | [(name, value)] => quote name.toList ++ ':' :: value.write
  | (name, value) :: rest => quote name.toList ++ ':' :: value.write ++ ',' :: writeMembers rest

/-- An object. -/
def writeObject (members : List (String × Scalar)) : List Char :=
  '{' :: writeMembers members ++ ['}']

end BurnAfterRead.Json
