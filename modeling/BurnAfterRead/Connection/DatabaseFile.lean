import BurnAfterRead.Connection.Address
import BurnAfterRead.Text.Percent

/-!
# Databases in files

Which file a database without a server is kept in, and how it is opened. A full address may name the
file, a database in memory, and the way to open it.
-/

namespace BurnAfterRead.Connection

structure DatabaseFile where
  path : String
  inMemory : Bool
  createIfMissing : Bool
  readOnly : Bool
  deriving DecidableEq, Repr

namespace DatabaseFile

/-- Takes a leading text away as often as it stands there. -/
def withoutLeading (mark : List Char) : Nat → List Char → List Char
  | 0, cs => cs
  | fuel + 1, cs =>
    match Text.after? mark cs with
    | some rest => withoutLeading mark fuel rest
    | none => cs

/-- A parameter of a full address. -/
def parameter (key value : String) (f : DatabaseFile) : Option DatabaseFile :=
  match key with
  | "mode" =>
    match value with
    | "ro" => some { f with readOnly := true }
    | "rw" => some f
    | "rwc" => some { f with createIfMissing := true }
    | "memory" => some { f with inMemory := true }
    | _ => none
  | "cache" => if value = "private" ∨ value = "shared" then some f else none
  | "immutable" => if ["true", "1", "false", "0"].contains value then some f else none
  | "vfs" => some f
  | _ => none

/-- Reads a full address: `sqlite:` and two slashes may stand before the file's path. -/
def ofUri? (s : String) : Option DatabaseFile := do
  let cs := s.toList
  let cs := withoutLeading ['s', 'q', 'l', 'i', 't', 'e', ':'] cs.length cs
  let cs := withoutLeading ['/', '/'] cs.length cs
  let (place, parameters) := match Text.cutFirst '?' cs with
    | some (place, rest) => (place, Text.formPairs rest)
    | none => (cs, [])
  let start : DatabaseFile ←
    if place = [':', 'm', 'e', 'm', 'o', 'r', 'y', ':'] then some ⟨"", true, false, false⟩
    else (Text.percentText? place).map fun path => ⟨path, false, false, false⟩
  parameters.foldlM (fun f p => parameter p.1 p.2 f) start

/-- The file of some settings. -/
def ofSettings (db : DatabaseSettings) : Except Failure DatabaseFile :=
  match db.uri with
  | some uri => require "unusable address" (ofUri? uri)
  | none =>
    if db.inMemory then .ok ⟨"", true, false, false⟩ else .ok ⟨db.file, false, true, false⟩

/-- The folder that a path leads into. -/
def folder (path : String) : String :=
  match Text.cutLast '/' path.toList with
  | some (before, _) => String.ofList before
  | none => "."

/-- Whether the file can be opened where those files and folders are: its folder has to be there, and
the file as well unless it is to be created. -/
def opens (hasFile hasFolder : String → Bool) (f : DatabaseFile) : Bool :=
  f.inMemory || f.path = "" || f.path = ":memory:" ||
    !hasFolder f.path && hasFolder (folder f.path) && (f.createIfMissing || hasFile f.path)

end DatabaseFile

end BurnAfterRead.Connection
