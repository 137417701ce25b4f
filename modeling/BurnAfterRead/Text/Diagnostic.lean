import BurnAfterRead.Text.Unprintable

/-!
# Diagnostic texts

How values are shown in diagnostics: texts in quotes with escapes, values that may be missing, and
records with their fields by name.
-/

namespace BurnAfterRead.Diagnostic

/-- A character as it is shown between quotes. -/
def escape (c : Char) : List Char :=
  if c = '"' then ['\\', '"']
  else if c = '\\' then ['\\', '\\']
  else if c = '\n' then ['\\', 'n']
  else if c = '\r' then ['\\', 'r']
  else if c = '\t' then ['\\', 't']
  else if c = '\x00' then ['\\', '0']
  else if Text.isUnprintable c then
    ['\\', 'u', '\x7b'] ++ Nat.toDigits 16 c.toNat ++ ['\x7d']
  else [c]

/-- A text in quotes. -/
def quoted (s : String) : String := String.ofList ('"' :: s.toList.flatMap escape ++ ['"'])

/-- A value that may be missing. -/
def optional : Option String → String
  | some shown => "Some(" ++ shown ++ ")"
  | none => "None"

/-- Fields by name, separated by commas. -/
def fields : List (String × String) → String
  | [] => ""
  | [(name, shown)] => name ++ ": " ++ shown
  | (name, shown) :: rest => name ++ ": " ++ shown ++ ", " ++ fields rest

/-- A record under its name. -/
def record (name : String) (members : List (String × String)) : String :=
  name ++ " \x7b " ++ fields members ++ " \x7d"

end BurnAfterRead.Diagnostic
