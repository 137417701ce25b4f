import BurnAfterRead.Text.Hex
import BurnAfterRead.Text.Numeral
import BurnAfterRead.Text.Percent

/-!
# Reading JSON records

A record is an object with known fields that hold texts, or an array that holds them in order. The
reader stops at the first fault of the text, and tells a text that is not JSON up to that point from
JSON of another shape. Fields it does not know are skipped without looking at their shape.
-/

namespace BurnAfterRead.Json

/-- Why a text is not the record that was asked for. -/
inductive Fault where
  /-- The text is not JSON. -/
  | malformed
  /-- JSON, but not of the record's shape. -/
  | mismatched
  deriving DecidableEq, Repr

/-- What stands for bytes that are not UTF-8. It is an escape that forms no character: a text that is read
may not have it, one that is skipped may, and neither it nor its first character is of use anywhere else. -/
def unreadable : List Char := ['\ufffd', '\\', 'u', 'd', '8', '0', '0', '\ufffd']

/-- The characters that are read from some bytes. -/
def source (bytes : List UInt8) : List Char := Text.lossyText unreadable bytes

def isSpace (c : Char) : Bool := c = ' ' || c = '\n' || c = '\r' || c = '\t'

def skipSpace (cs : List Char) : List Char := cs.dropWhile isSpace

/-- Reads four hexadecimal digits. -/
def readUnit? : List Char → Option (Nat × List Char)
  | a :: b :: c :: d :: rest => do
    let p ← Text.hexValue? a
    let q ← Text.hexValue? b
    let r ← Text.hexValue? c
    let s ← Text.hexValue? d
    some (((p * 16 + q) * 16 + r) * 16 + s, rest)
  | _ => none

def isHighSurrogate (n : Nat) : Bool := 0xD800 ≤ n && n ≤ 0xDBFF

def isLowSurrogate (n : Nat) : Bool := 0xDC00 ≤ n && n ≤ 0xDFFF

/-- Reads the digits of a `\u` escape; two escapes may form one character. -/
def readCodePoint? (cs : List Char) : Option (Char × List Char) := do
  let (n, rest) ← readUnit? cs
  if isLowSurrogate n then none
  else if isHighSurrogate n then
    match rest with
    | '\\' :: 'u' :: more => do
      let (m, rest) ← readUnit? more
      if isLowSurrogate m then some (Char.ofNat (0x10000 + (n - 0xD800) * 0x400 + (m - 0xDC00)), rest)
      else none
    | _ => none
  else some (Char.ofNat n, rest)

/-- The character of an escape of one letter. -/
def simpleEscape? (c : Char) : Option Char :=
  if c = '"' then some '"'
  else if c = '\\' then some '\\'
  else if c = '/' then some '/'
  else if c = 'b' then some '\x08'
  else if c = 'f' then some '\x0c'
  else if c = 'n' then some '\n'
  else if c = 'r' then some '\r'
  else if c = 't' then some '\t'
  else none

/-- Reads a text up to its closing quote; `acc` holds what was read, last character first. The text
has at most `fuel` characters and escapes. -/
def readTextBody : Nat → List Char → List Char → Except Fault (List Char × List Char)
  | 0, _, _ => .error .malformed
  | fuel + 1, acc, cs =>
    match cs with
    | [] => .error .malformed
    | '"' :: rest => .ok (acc.reverse, rest)
    | '\\' :: 'u' :: rest =>
      match readCodePoint? rest with
      | some (c, rest) => readTextBody fuel (c :: acc) rest
      | none => .error .malformed
    | '\\' :: e :: rest =>
      match simpleEscape? e with
      | some c => readTextBody fuel (c :: acc) rest
      | none => .error .malformed
    | c :: rest =>
      if c = '\\' ∨ c.toNat < 32 then .error .malformed else readTextBody fuel (c :: acc) rest

/-- Reads a text after its opening quote. -/
def readText (cs : List Char) : Except Fault (List Char × List Char) :=
  readTextBody (cs.length + 1) [] cs

/-- Skips a text after its opening quote. Escapes need not form characters. -/
def skipText : Nat → List Char → Except Fault (List Char)
  | 0, _ => .error .malformed
  | fuel + 1, cs =>
    match cs with
    | [] => .error .malformed
    | '"' :: rest => .ok rest
    | '\\' :: 'u' :: rest =>
      match readUnit? rest with
      | some (_, rest) => skipText fuel rest
      | none => .error .malformed
    | '\\' :: e :: rest =>
      match simpleEscape? e with
      | some _ => skipText fuel rest
      | none => .error .malformed
    | c :: rest => if c = '\\' ∨ c.toNat < 32 then .error .malformed else skipText fuel rest

/-- A number's digits: its value without the decimal point is `digits`, to be scaled by ten to the
power of `exponent`. -/
structure Numeral where
  digits : Nat
  exponent : Int
  rest : List Char

/-- Reads the exponent of a number that has one. -/
def readExponent (digits : Nat) (exponent : Int) (cs : List Char) : Except Fault Numeral :=
  match cs with
  | [] => .ok ⟨digits, exponent, []⟩
  | e :: tail =>
    if e = 'e' ∨ e = 'E' then
      let (negative, tail) := match tail with
        | '-' :: t => (true, t)
        | '+' :: t => (false, t)
        | t => (false, t)
      let ds := tail.takeWhile Char.isDigit
      if ds = [] then .error .malformed
      else
        let n : Int := Text.digitsValue ds
        .ok ⟨digits, exponent + (if negative then -n else n), tail.dropWhile Char.isDigit⟩
    else .ok ⟨digits, exponent, cs⟩

/-- Reads a number without its sign: no leading zeros, digits on both sides of a point. -/
def readNumber (cs : List Char) : Except Fault Numeral :=
  let whole := cs.takeWhile Char.isDigit
  let tail := cs.dropWhile Char.isDigit
  if whole = [] ∨ (whole.length > 1 ∧ whole.head? = some '0') then .error .malformed
  else
    match tail with
    | '.' :: more =>
      let places := more.takeWhile Char.isDigit
      if places = [] then .error .malformed
      else
        readExponent (Text.digitsValue (whole ++ places)) (-places.length)
          (more.dropWhile Char.isDigit)
    | _ => readExponent (Text.digitsValue whole) 0 tail

/-- Whether a number is too large for a double: no double is 2¹⁰²⁴ or larger. -/
def Numeral.isTooLarge (n : Numeral) : Bool :=
  if n.digits = 0 then false
  else if n.exponent ≤ 0 then
    let places := (-n.exponent).toNat
    if (Text.decimal n.digits).length ≤ places + 308 then false
    else n.digits ≥ (1 <<< 1024 - 1 <<< 970) * Nat.pow 10 places
  else if n.exponent > 308 then true
  else n.digits * Nat.pow 10 n.exponent.toNat ≥ 1 <<< 1024 - 1 <<< 970

/-- Skips a number without its sign. -/
def skipNumber (cs : List Char) : Except Fault (List Char) :=
  (readNumber cs).map (·.rest)

/-- Skips the letters of a word. -/
def skipWord : List Char → List Char → Except Fault (List Char)
  | [], cs => .ok cs
  | _ :: _, [] => .error .malformed
  | w :: word, c :: cs => if w = c then skipWord word cs else .error .malformed

/-- The arrays and objects that are open, the innermost first. -/
inductive Bracket where
  | array
  | object
  deriving DecidableEq, Repr

/-- Skips a member's name and the colon behind it. -/
def skipName (cs : List Char) : Except Fault (List Char) :=
  match cs with
  | '"' :: rest => do
    let rest ← skipText (rest.length + 1) rest
    match skipSpace rest with
    | ':' :: rest => .ok rest
    | _ => .error .malformed
  | _ => .error .malformed

mutual

/-- Skips one value and then what is open around it. Each round takes a character. -/
def skipValue : Nat → List Bracket → List Char → Except Fault (List Char)
  | 0, _, _ => .error .malformed
  | fuel + 1, frames, cs =>
    match skipSpace cs with
    | [] => .error .malformed
    | '"' :: rest => do skipTail fuel frames (← skipText (rest.length + 1) rest)
    | '[' :: rest =>
      match skipSpace rest with
      | ']' :: rest => skipTail fuel frames rest
      | rest => skipValue fuel (.array :: frames) rest
    | '{' :: rest =>
      match skipSpace rest with
      | '}' :: rest => skipTail fuel frames rest
      | rest => do skipValue fuel (.object :: frames) (← skipName rest)
    | '-' :: rest => do skipTail fuel frames (← skipNumber rest)
    | 'n' :: rest => do skipTail fuel frames (← skipWord ['u', 'l', 'l'] rest)
    | 't' :: rest => do skipTail fuel frames (← skipWord ['r', 'u', 'e'] rest)
    | 'f' :: rest => do skipTail fuel frames (← skipWord ['a', 'l', 's', 'e'] rest)
    | rest => do skipTail fuel frames (← skipNumber rest)

/-- Skips what follows a value within the open brackets. -/
def skipTail : Nat → List Bracket → List Char → Except Fault (List Char)
  | 0, _, _ => .error .malformed
  | _ + 1, [], cs => .ok cs
  | fuel + 1, .array :: frames, cs =>
    match skipSpace cs with
    | ',' :: rest => skipValue fuel (.array :: frames) rest
    | ']' :: rest => skipTail fuel frames rest
    | _ => .error .malformed
  | fuel + 1, .object :: frames, cs =>
    match skipSpace cs with
    | ',' :: rest => do skipValue fuel (.object :: frames) (← skipName (skipSpace rest))
    | '}' :: rest => skipTail fuel frames rest
    | _ => .error .malformed

end

/-- Skips one value of any shape. -/
def skipAny (cs : List Char) : Except Fault (List Char) := skipValue (2 * cs.length + 2) [] cs

/-- The fault of a value that should have been something else: a scalar has to be well-formed to
count as a value of another shape. -/
def faultOf (cs : List Char) : Fault :=
  let scalar (r : Except Fault (List Char)) : Fault := match r with
    | .ok _ => .mismatched
    | .error fault => fault
  let number (body : List Char) : Fault := match readNumber body with
    | .ok n => if n.isTooLarge then .malformed else .mismatched
    | .error fault => fault
  match cs with
  | '"' :: rest => scalar ((readText rest).map (·.2))
  | '[' :: _ => .mismatched
  | '{' :: _ => .mismatched
  | 'n' :: rest => scalar (skipWord ['u', 'l', 'l'] rest)
  | 't' :: rest => scalar (skipWord ['r', 'u', 'e'] rest)
  | 'f' :: rest => scalar (skipWord ['a', 'l', 's', 'e'] rest)
  | '-' :: rest => number rest
  | cs => number cs

/-- Reads a field's text; `null` stands for none where the field may be empty. -/
def readField (nullable : Bool) (cs : List Char) : Except Fault (Option String × List Char) :=
  match skipSpace cs with
  | [] => .error .malformed
  | '"' :: rest => do
    let (text, rest) ← readText rest
    .ok (some (String.ofList text), rest)
  | 'n' :: rest =>
    if nullable then do .ok (none, ← skipWord ['u', 'l', 'l'] rest)
    else .error (faultOf ('n' :: rest))
  | cs => .error (faultOf cs)

/-- The fields of an object that were read so far. -/
abbrev Fields := List (String × Option String)

def Fields.get (fields : Fields) (name : String) : Option String := (fields.lookup name).join

/-- Reads the members of an object from a member's name on. -/
def readMembers (names : List String) (nullable : Bool) :
    Nat → Fields → List Char → Except Fault (Fields × List Char)
  | 0, _, _ => .error .malformed
  | fuel + 1, found, cs =>
    match cs with
    | '"' :: rest => do
      let (name, rest) ← readText rest
      let name := String.ofList name
      let known := names.contains name
      if known && found.any (·.1 == name) then .error .mismatched
      else
        match skipSpace rest with
        | ':' :: rest => do
          let (found, rest) ←
            if known then do
              let (value, rest) ← readField nullable rest
              .ok (found ++ [(name, value)], rest)
            else do .ok (found, ← skipAny rest)
          match skipSpace rest with
          | '}' :: rest => .ok (found, rest)
          | ',' :: rest => readMembers names nullable fuel found (skipSpace rest)
          | _ => .error .malformed
        | _ => .error .malformed
    | _ => .error .malformed

/-- Reads the elements of an array as fields, each after a comma but the first. -/
def readElements (nullable : Bool) :
    List String → Bool → Fields → List Char → Except Fault (Fields × List Char)
  | [], _, found, cs =>
    match skipSpace cs with
    | ']' :: rest => .ok (found, rest)
    | _ => .error .malformed
  | name :: names, first, found, cs =>
    match skipSpace cs with
    | [] => .error .malformed
    | ']' :: _ => .error .mismatched
    | c :: rest =>
      if first || c = ',' then
        let body := if first then c :: rest else skipSpace rest
        if !first && body.head? = some ']' then .error .malformed
        else do
          let (value, rest) ← readField nullable body
          readElements nullable names false (found ++ [(name, value)]) rest
      else .error .malformed

/-- Reads a record with the given fields, and leaves what follows it. -/
def readRecord (names : List String) (nullable : Bool) (cs : List Char) :
    Except Fault (Fields × List Char) :=
  match skipSpace cs with
  | [] => .error .malformed
  | '{' :: rest =>
    match skipSpace rest with
    | '}' :: rest => .ok ([], rest)
    | rest => readMembers names nullable (rest.length + 1) [] rest
  | '[' :: rest => readElements nullable names true [] rest
  | cs => .error (faultOf cs)

end BurnAfterRead.Json
