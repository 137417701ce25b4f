import BurnAfterRead.Text.Hex
import BurnAfterRead.Text.Split

/-!
# Percent encoding

Bytes that are written as a percent sign and two hexadecimal digits, and forms of names and values
in which a plus sign stands for a space. A percent sign that no two digits follow stands for itself.
-/

namespace BurnAfterRead.Text

/-- The bytes of a character in UTF-8. -/
def utf8Bytes (c : Char) : List UInt8 := (String.singleton c).toUTF8.toList

/-- The bytes that a text with percent signs stands for. -/
def percentDecode : List Char → List UInt8
  | [] => []
  | '%' :: h :: l :: rest =>
    match hexValue? h, hexValue? l with
    | some hi, some lo => UInt8.ofNat (16 * hi + lo) :: percentDecode rest
    | _, _ => 37 :: percentDecode (h :: l :: rest)
  | c :: rest => utf8Bytes c ++ percentDecode rest
termination_by cs => cs.length

/-- The text that a text with percent signs stands for, if its bytes are UTF-8. -/
def percentText? (cs : List Char) : Option String :=
  String.fromUTF8? ⟨(percentDecode cs).toArray⟩

/-- The number of bytes at the front that form a character, as far as they go: the first byte tells
how many follow and which may come next. The flag tells whether the character is complete. -/
def utf8Prefix : List UInt8 → Nat × Bool
  | [] => (0, false)
  | b :: rest =>
    let continues (low high : UInt8) (n : Nat) : Nat × Bool :=
      let rec go (low high : UInt8) : Nat → List UInt8 → Nat
        | 0, _ => 0
        | _ + 1, [] => 0
        | n + 1, c :: more => if low ≤ c ∧ c ≤ high then go 0x80 0xbf n more + 1 else 0
      let k := go low high n rest
      (k + 1, k = n)
    if b < 0x80 then (1, true)
    else if b < 0xc2 then (1, false)
    else if b < 0xe0 then continues 0x80 0xbf 1
    else if b = 0xe0 then continues 0xa0 0xbf 2
    else if b = 0xed then continues 0x80 0x9f 2
    else if b < 0xf0 then continues 0x80 0xbf 2
    else if b = 0xf0 then continues 0x90 0xbf 3
    else if b < 0xf4 then continues 0x80 0xbf 3
    else if b = 0xf4 then continues 0x80 0x8f 3
    else (1, false)

/-- The text of some bytes; what is not UTF-8 in them is replaced, one mark for each part. -/
def lossyText (mark : List Char) (bytes : List UInt8) : List Char :=
  go bytes.length [] bytes
where
  /-- `acc` holds what was read, last character first. -/
  go : Nat → List Char → List UInt8 → List Char
    | 0, acc, _ => acc.reverse
    | _ + 1, acc, [] => acc.reverse
    | fuel + 1, acc, bytes =>
      let (n, complete) := utf8Prefix bytes
      let n := max n 1
      let char :=
        if complete then (String.fromUTF8? ⟨(bytes.take n).toArray⟩).map String.toList else none
      go fuel ((char.getD mark).reverse ++ acc) (bytes.drop n)

/-- The text of a name or value in a form. -/
def formText (cs : List Char) : String :=
  String.ofList (lossyText ['\ufffd'] (percentDecode (cs.map fun c => if c = '+' then ' ' else c)))

/-- The pairs of a form, in order; a name without an equals sign has an empty value. -/
def formPairs (cs : List Char) : List (String × String) :=
  ((cs.splitOn '&').filter (· ≠ [])).map fun pair =>
    match cutFirst '=' pair with
    | some (name, value) => (formText name, formText value)
    | none => (formText pair, "")

end BurnAfterRead.Text
