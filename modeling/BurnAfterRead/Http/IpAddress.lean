import BurnAfterRead.Text.Hex
import BurnAfterRead.Text.Numeral
import BurnAfterRead.Text.Split

/-!
# Internet addresses

Addresses of both kinds, their canonical text, and the address part of a socket address. In the
text of an IPv6 address the first of the longest runs of two or more zero groups is left out.
-/

namespace BurnAfterRead.Http

inductive IpAddress where
  /-- Four bytes. -/
  | v4 (bytes : List Nat)
  /-- Eight groups of 16 bits. -/
  | v6 (groups : List Nat)
  deriving DecidableEq, Repr

namespace IpAddress

/-- Texts with a separator between them. -/
def joined (sep : Char) : List (List Char) → List Char
  | [] => []
  | [part] => part
  | part :: rest => part ++ sep :: joined sep rest

/-- The hexadecimal digits of a group, without leading zeros. -/
def groupText (n : Nat) : List Char := Nat.toDigits 16 n

/-- The start and length of the first longest run of zeros; `current` is the run up to `i`. -/
def zeroRun (groups : List Nat) (i : Nat) (current best : Nat × Nat) : Nat × Nat :=
  match groups with
  | [] => best
  | g :: rest =>
    if g = 0 then
      let current := if current.2 = 0 then (i, 1) else (current.1, current.2 + 1)
      zeroRun rest (i + 1) current (if current.2 > best.2 then current else best)
    else zeroRun rest (i + 1) (0, 0) best

/-- The canonical text of an address. -/
def text : IpAddress → List Char
  | v4 bytes => joined '.' (bytes.map Text.decimal)
  | v6 [0, 0, 0, 0, 0, 0xffff, hi, lo] =>
    "::ffff:".toList ++ joined '.' ([hi / 256, hi % 256, lo / 256, lo % 256].map Text.decimal)
  | v6 groups =>
    let (start, length) := zeroRun groups 0 (0, 0) (0, 0)
    let part (gs : List Nat) := joined ':' (gs.map groupText)
    if length > 1 then part (groups.take start) ++ ':' :: ':' :: part (groups.drop (start + length))
    else part groups

/-- Reads four decimal bytes; leading zeros are refused. -/
def readV4? (cs : List Char) : Option (List Nat) := do
  let parts := cs.splitOn '.'
  if parts.length ≠ 4 then none
  else parts.mapM fun p =>
    if p.length > 1 ∧ p.head? = some '0' then none
    else (Text.readDigits p).filter (· < 256)

/-- Reads one group of at most four hexadecimal digits. -/
def readGroup? (cs : List Char) : Option Nat :=
  if cs = [] ∨ cs.length > 4 then none
  else cs.foldlM (fun acc c => (Text.hexValue? c).map (acc * 16 + ·)) 0

/-- Reads groups between colons; an IPv4 address may stand for the last two. -/
def readGroups? (cs : List Char) : Option (List Nat) :=
  if cs = [] then some []
  else
    let parts := cs.splitOn ':'
    match parts.getLast? with
    | some last =>
      if last.contains '.' then do
        let front ← parts.dropLast.mapM readGroup?
        match ← readV4? last with
        | [a, b, c, d] => some (front ++ [a * 256 + b, c * 256 + d])
        | _ => none
      else parts.mapM readGroup?
    | none => none

/-- Cuts at the first double colon. -/
def cutDoubleColon : List Char → Option (List Char × List Char)
  | ':' :: ':' :: rest => some ([], rest)
  | c :: rest => (cutDoubleColon rest).map fun p => (c :: p.1, p.2)
  | [] => none

/-- Reads an IPv6 address. -/
def readV6? (cs : List Char) : Option (List Nat) :=
  match cutDoubleColon cs with
  | some (front, back) => do
    let front ← readGroups? front
    let back ← readGroups? back
    if front.length + back.length < 8 then
      some (front ++ List.replicate (8 - front.length - back.length) 0 ++ back)
    else none
  | none => (readGroups? cs).filter (·.length = 8)

/-- The address of a socket address: `a.b.c.d:port` or `[address]:port`. -/
def ofSocket? (cs : List Char) : Option IpAddress := do
  let (host, _) ← Text.cutLast ':' cs
  match host with
  | '[' :: rest => (readV6? (Text.upTo '%' (Text.upTo ']' rest))).map v6
  | host => (readV4? host).map v4

end IpAddress

end BurnAfterRead.Http
