import BurnAfterRead.Text.Hex
import BurnAfterRead.Text.Split

/-!
# Universally unique identifiers

Identifiers of 128 bits. Their canonical text is 32 lower-case hexadecimal digits in five groups with
hyphens between them; the reader also takes the digits without hyphens, the hyphened form in braces
or after `urn:uuid:`, and either letter case.
-/

namespace BurnAfterRead

structure Uuid where
  bits : BitVec 128
  deriving DecidableEq, Repr

namespace Uuid

/-- The identifier of random bits: those that tell its version and variant are set. -/
def ofRandom (random : BitVec 128) : Uuid :=
  let versioned := (random &&& ~~~(0xf#128 <<< 76)) ||| (0x4#128 <<< 76)
  ⟨(versioned &&& ~~~(0x3#128 <<< 62)) ||| (0x2#128 <<< 62)⟩

/-- The hexadecimal digits of a number, `count` of them. -/
def digits : Nat → Nat → List Char
  | 0, _ => []
  | count + 1, n => digits count (n / 16) ++ [Text.hexDigit (n % 16)]

/-- The lengths of the groups of digits. -/
def groupLengths : List Nat := [8, 4, 4, 4, 12]

/-- Puts hyphens between groups of the given lengths. -/
def hyphenate : List Nat → List Char → List Char
  | [], cs => cs
  | [_], cs => cs
  | n :: rest, cs => cs.take n ++ '-' :: hyphenate rest (cs.drop n)

/-- The canonical text. -/
def text (u : Uuid) : String := String.ofList (hyphenate groupLengths (digits 32 u.bits.toNat))

/-- The number of some hexadecimal digits. -/
def number? (cs : List Char) : Option Nat :=
  cs.foldlM (fun acc c => (Text.hexValue? c).map (16 * acc + ·)) 0

/-- Reads 32 digits. -/
def readPlain? (cs : List Char) : Option Uuid :=
  if cs.length = 32 then (number? cs).map fun n => ⟨BitVec.ofNat 128 n⟩ else none

/-- Takes away the hyphens between groups of the given lengths. -/
def joinGroups? : List Nat → List Char → Option (List Char)
  | [], cs => some cs
  | [_], cs => some cs
  | n :: rest, cs =>
    match cs.drop n with
    | '-' :: more => (joinGroups? rest more).map (cs.take n ++ ·)
    | _ => none

/-- Reads the canonical form in either letter case. -/
def readHyphened? (cs : List Char) : Option Uuid := (joinGroups? groupLengths cs).bind readPlain?

/-- Reads an identifier in any of its forms. -/
def ofText? (s : String) : Option Uuid :=
  let cs := s.toList
  match cs with
  | '{' :: rest => if rest.getLast? = some '}' then readHyphened? rest.dropLast else none
  | _ =>
    match Text.after? ['u', 'r', 'n', ':', 'u', 'u', 'i', 'd', ':'] cs with
    | some rest => readHyphened? rest
    | none => readPlain? cs <|> readHyphened? cs

end Uuid

end BurnAfterRead
