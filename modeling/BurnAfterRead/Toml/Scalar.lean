import BurnAfterRead.Decimal.Double
import BurnAfterRead.Text.Hex
import BurnAfterRead.Time.Calendar
import BurnAfterRead.Toml.Node

/-!
# TOML scalars

Numbers, times and texts. Every reader takes its part off the front of a text and leaves the rest.
Underscores may stand between two digits of a number; a number that is too large for its kind is no
number. Times are checked and then forgotten.
-/

namespace BurnAfterRead.Toml

/-- A reader that may refuse. -/
abbrev Reader (α : Type) : Type := List Char → Option (α × List Char)

def isBlank (c : Char) : Bool := c = ' ' || c = '\t'

def skipBlanks (cs : List Char) : List Char := cs.dropWhile isBlank

/-- Characters that may stand in comments and between quotes: no control characters but the tab. -/
def isPlain (c : Char) : Bool := c = '\t' || (32 ≤ c.toNat && c.toNat ≠ 127)

/-- Reads a line break. -/
def readBreak? : List Char → Option (List Char)
  | '\n' :: rest => some rest
  | '\r' :: '\n' :: rest => some rest
  | _ => none

/-! ## Numbers -/

/-- Reads the digits of a kind that follow a digit. Underscores are left out, and a digit has to
follow each. -/
def readMoreDigits (isDigit : Char → Bool) : List Char → Option (List Char × List Char)
  | '_' :: d :: rest =>
    if isDigit d then (readMoreDigits isDigit rest).map fun p => (d :: p.1, p.2) else none
  | ['_'] => none
  | c :: rest =>
    if isDigit c then (readMoreDigits isDigit rest).map fun p => (c :: p.1, p.2)
    else some ([], c :: rest)
  | [] => some ([], [])

/-- Reads one or more digits of a kind. -/
def readDigits (isDigit : Char → Bool) : List Char → Option (List Char × List Char)
  | c :: rest =>
    if isDigit c then (readMoreDigits isDigit rest).map fun p => (c :: p.1, p.2) else none
  | [] => none

/-- Reads the sign of a number; whether it is negative, and the rest. -/
def readSign : List Char → Bool × List Char
  | '-' :: rest => (true, rest)
  | '+' :: rest => (false, rest)
  | cs => (false, cs)

/-- Reads decimal digits without leading zeros. -/
def readWhole : List Char → Option (List Char × List Char)
  | '0' :: rest => some (['0'], rest)
  | cs => readDigits Char.isDigit cs

/-- The number of some digits in a base. -/
def numberOf (base : Nat) (digits : List Char) : Nat :=
  digits.foldl (fun acc c => acc * base + (Text.hexValue? c).getD 0) 0

/-- An integer of at most 63 bits and a sign. -/
def integer? (negative : Bool) (n : Nat) : Option Node :=
  if negative then if n ≤ Text.maxInt64 + 1 then some (.integer (-(n : Int))) else none
  else if n ≤ Text.maxInt64 then some (.integer n) else none

/-- Reads an integer in a base that is named by a letter after a zero. -/
def readInBase (base : Nat) (cs : List Char) : Option (Node × List Char) := do
  let isDigit (c : Char) : Bool := match Text.hexValue? c with
    | some v => v < base
    | none => false
  let (digits, rest) ← readDigits isDigit cs
  some (← integer? false (numberOf base digits), rest)

/-- Reads the exponent of a number, if it has one. -/
def readExponent : List Char → Option (Option Int × List Char)
  | [] => some (none, [])
  | e :: rest =>
    if e = 'e' ∨ e = 'E' then do
      let (negative, rest) := readSign rest
      let (digits, rest) ← readDigits Char.isDigit rest
      let n : Int := numberOf 10 digits
      some (some (if negative then -n else n), rest)
    else some (none, e :: rest)

/-- A decimal number; one that is too large has no value unless it is negative. -/
def decimal? (negative : Bool) (digits : List Char) (exponent : Int) : Option Node :=
  let x := Decimal.nearest (numberOf 10 digits) exponent
  if negative then some (.decimal (-x)) else if x.isInf then none else some (.decimal x)

/-- Reads a decimal integer, or a number with a fraction or an exponent. -/
def readDecimal (cs : List Char) : Option (Node × List Char) := do
  let (negative, body) := readSign cs
  let (whole, rest) ← readWhole body
  match rest with
  | '.' :: more => do
    let (places, rest) ← readDigits Char.isDigit more
    let (exponent, rest) ← readExponent rest
    some (← decimal? negative (whole ++ places) (exponent.getD 0 - places.length), rest)
  | rest => do
    match ← readExponent rest with
    | (some exponent, rest) => some (← decimal? negative whole exponent, rest)
    | (none, rest) => some (← integer? negative (numberOf 10 whole), rest)

/-- Reads the names of infinity and of no number. -/
def readSpecial (cs : List Char) : Option (Node × List Char) :=
  let (negative, body) := readSign cs
  let signed (x : Float) : Node := .decimal (if negative then -x else x)
  match body with
  | 'i' :: 'n' :: 'f' :: rest => some (signed (1.0 / 0.0), rest)
  | 'n' :: 'a' :: 'n' :: rest => some (signed (0.0 / 0.0), rest)
  | _ => none

/-- Reads a number. -/
def readNumber (cs : List Char) : Option (Node × List Char) :=
  match cs with
  | '0' :: 'x' :: rest => readInBase 16 rest
  | '0' :: 'o' :: rest => readInBase 8 rest
  | '0' :: 'b' :: rest => readInBase 2 rest
  | cs => readSpecial cs <|> readDecimal cs

/-! ## Times -/

/-- Reads exactly `width` digits. -/
def readFixed (width : Nat) (cs : List Char) : Option (Nat × List Char) :=
  let digits := cs.take width
  if digits.length = width ∧ digits.all Char.isDigit then
    some (Text.digitsValue digits, cs.drop width)
  else none

/-- Skips a mark. -/
def skipMark? (mark : Char) : List Char → Option (List Char)
  | c :: rest => if c = mark then some rest else none
  | [] => none

/-- Skips a date. -/
def skipDate? (cs : List Char) : Option (List Char) := do
  let (year, cs) ← readFixed 4 cs
  let (month, cs) ← readFixed 2 (← skipMark? '-' cs)
  let (day, cs) ← readFixed 2 (← skipMark? '-' cs)
  if 1 ≤ day ∧ day ≤ Calendar.daysInMonth year month then some cs else none

/-- Skips a fraction of a second, if there is one. -/
def skipFraction? : List Char → Option (List Char)
  | '.' :: rest =>
    if rest.head?.any Char.isDigit then some (rest.dropWhile Char.isDigit) else none
  | cs => some cs

/-- Skips a time of day. -/
def skipClock? (cs : List Char) : Option (List Char) := do
  let (hour, cs) ← readFixed 2 cs
  let (minute, cs) ← readFixed 2 (← skipMark? ':' cs)
  let (second, cs) ← readFixed 2 (← skipMark? ':' cs)
  let cs ← skipFraction? cs
  if hour < 24 ∧ minute < 60 ∧ second ≤ 60 then some cs else none

/-- Skips an offset from universal time, if there is one. -/
def skipOffset? : List Char → Option (List Char)
  | [] => some []
  | c :: rest =>
    if c = 'Z' ∨ c = 'z' then some rest
    else if c = '+' ∨ c = '-' then do
      let (hours, cs) ← readFixed 2 rest
      let (minutes, cs) ← readFixed 2 (← skipMark? ':' cs)
      if hours < 24 ∧ minutes < 60 then some cs else none
    else some (c :: rest)

/-- Whether the text begins like a time of day. -/
def beginsClock : List Char → Bool
  | a :: b :: ':' :: _ => a.isDigit && b.isDigit
  | _ => false

/-- Whether the text begins like a date. -/
def beginsDate : List Char → Bool
  | a :: b :: c :: d :: '-' :: _ => a.isDigit && b.isDigit && c.isDigit && d.isDigit
  | _ => false

/-- Skips a date, a time of day, or both. -/
def skipMoment? (cs : List Char) : Option (List Char) :=
  if beginsDate cs then do
    let cs ← skipDate? cs
    match cs with
    | c :: rest =>
      if (c = 'T' ∨ c = 't' ∨ c = ' ') ∧ beginsClock rest then do skipOffset? (← skipClock? rest)
      else some cs
    | [] => some []
  else skipClock? cs

/-! ## Texts -/

/-- The character of an escape of one letter. -/
def simpleEscape? (c : Char) : Option Char :=
  if c = 'b' then some '\x08'
  else if c = 't' then some '\t'
  else if c = 'n' then some '\n'
  else if c = 'f' then some '\x0c'
  else if c = 'r' then some '\r'
  else if c = '"' then some '"'
  else if c = '\\' then some '\\'
  else none

/-- Reads the hexadecimal digits of an escape. -/
def readCode? (width : Nat) (cs : List Char) : Option (Char × List Char) :=
  let digits := cs.take width
  if digits.length = width ∧ digits.all (fun c => (Text.hexValue? c).isSome) then
    let n := numberOf 16 digits
    if n.isValidChar then some (Char.ofNat n, cs.drop width) else none
  else none

/-- Reads an escape after its backslash. -/
def readEscape? : List Char → Option (Char × List Char)
  | 'u' :: rest => readCode? 4 rest
  | 'U' :: rest => readCode? 8 rest
  | c :: rest => (simpleEscape? c).map fun e => (e, rest)
  | [] => none

/-- Reads a text on one line up to its closing quote. -/
def readLine : Nat → List Char → List Char → Option (List Char × List Char)
  | 0, _, _ => none
  | fuel + 1, acc, cs =>
    match cs with
    | '"' :: rest => some (acc.reverse, rest)
    | '\\' :: rest => do
      let (c, rest) ← readEscape? rest
      readLine fuel (c :: acc) rest
    | c :: rest => if isPlain c then readLine fuel (c :: acc) rest else none
    | [] => none

/-- Reads a text on one line without escapes. -/
def readLiteralLine (cs : List Char) : Option (List Char × List Char) :=
  let body := cs.takeWhile fun c => c != '\'' && isPlain c
  match cs.drop body.length with
  | '\'' :: rest => some (body, rest)
  | _ => none

/-- The number of quotes at the front. -/
def quotes (quote : Char) (cs : List Char) : Nat := (cs.takeWhile (· == quote)).length

/-- Skips blanks and line breaks. -/
def skipLines : List Char → List Char
  | '\r' :: '\n' :: rest => skipLines rest
  | c :: rest => if isBlank c || c = '\n' then skipLines rest else c :: rest
  | [] => []

/-- Reads a text over several lines up to its three closing quotes, before which two more may stand.
A backslash at the end of a line joins it to the next word. -/
def readBlock : Nat → List Char → List Char → Option (List Char × List Char)
  | 0, _, _ => none
  | fuel + 1, acc, cs =>
    match cs with
    | [] => none
    | '"' :: rest =>
      let n := quotes '"' cs
      if n ≥ 3 then
        let extra := min (n - 3) 2
        some ((List.replicate extra '"' ++ acc).reverse, cs.drop (3 + extra))
      else readBlock fuel ('"' :: acc) rest
    | '\\' :: rest =>
      match readBreak? (skipBlanks rest) with
      | some more => readBlock fuel acc (skipLines more)
      | none => do
        let (c, rest) ← readEscape? rest
        readBlock fuel (c :: acc) rest
    | c :: rest =>
      match readBreak? cs with
      | some more => readBlock fuel ('\n' :: acc) more
      | none => if isPlain c then readBlock fuel (c :: acc) rest else none

/-- Reads a text over several lines without escapes. -/
def readLiteralBlock : Nat → List Char → List Char → Option (List Char × List Char)
  | 0, _, _ => none
  | fuel + 1, acc, cs =>
    match cs with
    | [] => none
    | '\'' :: rest =>
      let n := quotes '\'' cs
      if n ≥ 3 then
        let extra := min (n - 3) 2
        some ((List.replicate extra '\'' ++ acc).reverse, cs.drop (3 + extra))
      else readLiteralBlock fuel ('\'' :: acc) rest
    | c :: rest =>
      match readBreak? cs with
      | some more => readLiteralBlock fuel ('\n' :: acc) more
      | none => if isPlain c then readLiteralBlock fuel (c :: acc) rest else none

/-- The text after a line break that directly follows the opening quotes. -/
def skipFirstBreak (cs : List Char) : List Char := (readBreak? cs).getD cs

/-- Reads a text of any form, from its opening quote on. -/
def readText (cs : List Char) : Option (String × List Char) :=
  let fuel := cs.length + 1
  let result := match cs with
    | '"' :: '"' :: '"' :: rest => readBlock fuel [] (skipFirstBreak rest)
    | '"' :: rest => readLine fuel [] rest
    | '\'' :: '\'' :: '\'' :: rest => readLiteralBlock fuel [] (skipFirstBreak rest)
    | '\'' :: rest => readLiteralLine rest
    | _ => none
  result.map fun p => (String.ofList p.1, p.2)

end BurnAfterRead.Toml
