import BurnAfterRead.Toml.Scalar

/-!
# TOML documents

A document is read line by line: headers open tables, and other lines set values in the table that
was opened last. Arrays and braces nest less than eighty deep, and keys have less than eighty parts.
-/

namespace BurnAfterRead.Toml

/-- How deep arrays and braces may nest, and how many parts a key may have, not counting this. -/
def depthLimit : Nat := 80

/-- Characters of a key without quotes. -/
def isKeyCharacter (c : Char) : Bool := c.isAlphanum || c = '-' || c = '_'

/-- Reads one part of a key. -/
def readKeyPart (cs : List Char) : Option (String × List Char) :=
  match cs with
  | '"' :: rest => (readLine (rest.length + 1) [] rest).map fun p => (String.ofList p.1, p.2)
  | '\'' :: rest => (readLiteralLine rest).map fun p => (String.ofList p.1, p.2)
  | cs =>
    let part := cs.takeWhile isKeyCharacter
    if part = [] then none else some (String.ofList part, cs.drop part.length)

/-- Reads a key of at most `fuel` parts with dots between them, and the blanks around them. -/
def readKeyParts : Nat → List Char → Option (List String × List Char)
  | 0, _ => none
  | fuel + 1, cs => do
    let (part, rest) ← readKeyPart (skipBlanks cs)
    match skipBlanks rest with
    | '.' :: more => do
      let (parts, rest) ← readKeyParts fuel more
      some (part :: parts, rest)
    | rest => some ([part], rest)

/-- Reads a key: its last part apart from the path to it. -/
def readKey (cs : List Char) : Option ((List String × String) × List Char) := do
  let (parts, rest) ← readKeyParts (depthLimit - 1) cs
  some ((parts.dropLast, ← parts.getLast?), rest)

/-- Skips a comment, if there is one; only plain characters may stand in it. -/
def skipComment : List Char → List Char
  | '#' :: rest => rest.dropWhile isPlain
  | cs => cs

/-- Skips blanks, comments and line breaks between the items of an array. -/
def skipSpace : Nat → List Char → Option (List Char)
  | 0, _ => none
  | fuel + 1, cs =>
    match skipBlanks cs with
    | '#' :: rest => do skipSpace fuel (← readBreak? (rest.dropWhile isPlain))
    | cs =>
      match readBreak? cs with
      | some rest => skipSpace fuel rest
      | none => some cs

/-- Skips the rest of a line: blanks, a comment, and the line break or the end. -/
def endLine (cs : List Char) : Option (List Char) :=
  match skipComment (skipBlanks cs) with
  | [] => some []
  | cs => readBreak? cs

mutual

/-- Reads a value within `depth` open arrays and braces. -/
def readValue : Nat → Nat → List Char → Option (Node × List Char)
  | 0, _, _ => none
  | fuel + 1, depth, cs =>
    match cs with
    | '"' :: _ => (readText cs).map fun p => (.text p.1, p.2)
    | '\'' :: _ => (readText cs).map fun p => (.text p.1, p.2)
    | '[' :: rest => if depth + 1 < depthLimit then readItems fuel (depth + 1) [] rest else none
    | '\x7b' :: rest =>
      if depth + 1 < depthLimit then
        match skipBlanks rest with
        | '\x7d' :: rest => some (.inlineTable .defined [], rest)
        | rest => readPairs fuel (depth + 1) [] rest
      else none
    | 't' :: 'r' :: 'u' :: 'e' :: rest => some (.boolean true, rest)
    | 'f' :: 'a' :: 'l' :: 's' :: 'e' :: rest => some (.boolean false, rest)
    | cs =>
      if beginsDate cs || beginsClock cs then (skipMoment? cs).map fun rest => (.moment, rest)
      else readNumber cs

/-- Reads the items of an array after the bracket or a comma, with those before them. -/
def readItems : Nat → Nat → List Node → List Char → Option (Node × List Char)
  | 0, _, _, _ => none
  | fuel + 1, depth, items, cs => do
    match ← skipSpace (cs.length + 1) cs with
    | ']' :: rest => some (.array items, rest)
    | cs => do
      let (item, rest) ← readValue fuel depth cs
      match ← skipSpace (rest.length + 1) rest with
      | ',' :: rest => readItems fuel depth (items ++ [item]) rest
      | ']' :: rest => some (.array (items ++ [item]), rest)
      | _ => none

/-- Reads the pairs between braces, with those before them. -/
def readPairs : Nat → Nat → Entries → List Char → Option (Node × List Char)
  | 0, _, _, _ => none
  | fuel + 1, depth, entries, cs => do
    let ((path, key), rest) ← readKey cs
    let (value, rest) ← readValue fuel depth (skipBlanks (← skipMark? '=' rest))
    let entries ← entries.addInline path key value .defined
    match skipBlanks rest with
    | ',' :: rest => readPairs fuel depth entries rest
    | '\x7d' :: rest => some (.inlineTable .defined entries, rest)
    | _ => none

end

/-- What was read of a document, and the table that is open. -/
structure Progress where
  root : Entries
  /-- Leads to the open table. -/
  path : List String

/-- Reads a line that sets a value. -/
def readSetting (p : Progress) (cs : List Char) : Option (Progress × List Char) := do
  let ((path, key), rest) ← readKey cs
  let rest := skipBlanks (← skipMark? '=' rest)
  let (value, rest) ← readValue (2 * rest.length + 2) 0 rest
  let rest ← endLine rest
  let root ← p.root.changeAt .header (Entries.addValue path key value) p.path .defined
  some ({ p with root := root }, rest)

/-- Reads a header after its opening brackets. -/
def readHeader (isArray : Bool) (p : Progress) (cs : List Char) : Option (Progress × List Char) := do
  let ((path, key), rest) ← readKey cs
  let rest ← skipMark? ']' rest
  let rest ← if isArray then skipMark? ']' rest else some rest
  let rest ← endLine rest
  let root ← if isArray then p.root.openArray path key else p.root.openTable path key
  some (⟨root, path ++ [key]⟩, rest)

/-- Reads the lines of a document. -/
def readLines : Nat → Progress → List Char → Option Entries
  | 0, _, _ => none
  | fuel + 1, p, cs =>
    match skipBlanks cs with
    | [] => some p.root
    | '#' :: rest => do readLines fuel p (← endLine ('#' :: rest))
    | '[' :: '[' :: rest => do
      let (p, rest) ← readHeader true p rest
      readLines fuel p rest
    | '[' :: rest => do
      let (p, rest) ← readHeader false p rest
      readLines fuel p rest
    | cs =>
      match readBreak? cs with
      | some rest => readLines fuel p rest
      | none => do
        let (p, rest) ← readSetting p cs
        readLines fuel p rest

/-- Reads a document; a byte order mark may stand before it. -/
def read? (text : String) : Option Entries :=
  let cs := match text.toList with
    | '\ufeff' :: rest => rest
    | cs => cs
  readLines (cs.length + 1) ⟨[], []⟩ cs

end BurnAfterRead.Toml
