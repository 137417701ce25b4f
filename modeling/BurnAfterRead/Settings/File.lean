import BurnAfterRead.Settings.Basic
import BurnAfterRead.Text.Numeral
import BurnAfterRead.Toml.Document

/-!
# The settings file

Settings are read from a document with a table for each section. A section may also be an array of
its settings in order. Unknown names are passed over, and what is missing keeps its default.
-/

namespace BurnAfterRead.SettingsFile

open Toml (Node Entries)

/-- A reading that fails with a description of the fault. -/
abbrev Reading (α : Type) : Type := Except String α

def wrongKind {α : Type} : Reading α := .error "a value of another kind is expected here"

def text : Node → Reading String
  | .text s => .ok s
  | _ => wrongKind

def optionalText (n : Node) : Reading (Option String) := (text n).map some

def boolean : Node → Reading Bool
  | .boolean b => .ok b
  | _ => wrongKind

/-- A number of at most `limit`. -/
def natural (limit : Nat) : Node → Reading Nat
  | .integer n => if 0 ≤ n ∧ n ≤ limit then .ok n.toNat else wrongKind
  | _ => wrongKind

/-- A number of any kind. -/
def decimal : Node → Reading Float
  | .decimal x => .ok x
  | .integer n => .ok (Float.ofInt n)
  | _ => wrongKind

/-- A value that is written as a text of its own format. -/
def parsed {α : Type} (parse : String → Except Failure α) (n : Node) : Reading α :=
  (text n).bind fun s => (parse s).mapError Failure.message

def duration : Node → Reading Duration := parsed Duration.parse

def driver : Node → Reading Driver := parsed Driver.parse

/-- A setting of a section by its name: how its value changes the section. -/
abbrev Setting (σ : Type) : Type := String × (Node → σ → Reading σ)

/-- A setting that is read and then put into its section. -/
def setting {σ α : Type} (name : String) (read : Node → Reading α) (put : α → σ → σ) :
    Setting σ :=
  (name, fun n section_ => (read n).map fun a => put a section_)

/-- Reads the values that are named in a table. -/
def readNamed {σ : Type} (settings : List (Setting σ)) (entries : Entries) (start : σ) :
    Reading σ :=
  entries.foldlM (fun section_ entry =>
    match settings.lookup entry.1 with
    | some read => read entry.2 section_
    | none => .ok section_) start

/-- Reads values in the order of the settings. -/
def readOrdered {σ : Type} (settings : List (Setting σ)) (items : List Node) (start : σ) :
    Reading σ :=
  (settings.zip items).foldlM (fun section_ p => p.1.2 p.2 section_) start

/-- Reads a section. A time in its place names no setting. -/
def readSection {σ : Type} (settings : List (Setting σ)) (start : σ) : Node → Reading σ
  | .table _ entries => readNamed settings entries start
  | .inlineTable _ entries => readNamed settings entries start
  | .array items => readOrdered settings items start
  | .tables items => readOrdered settings (items.map (Node.table .defined)) start
  | .moment => .ok start
  | _ => wrongKind

def serverSettings : List (Setting ServerSettings) :=
  [setting "host" text fun v s => { s with host := v },
    setting "port" (natural Text.maxUInt16) fun v s => { s with port := v }]

def secretSettings : List (Setting SecretSettings) :=
  [setting "encryption_key" text fun v s => { s with encryptionKey := v },
    setting "default_ttl" duration fun v s => { s with defaultTtl := v },
    setting "timeout" duration fun v s => { s with timeout := v },
    setting "cleanup_interval" duration fun v s => { s with cleanupInterval := v }]

def databaseSettings : List (Setting DatabaseSettings) :=
  [setting "driver" driver fun v s => { s with driver := v },
    setting "uri" optionalText fun v s => { s with uri := v },
    setting "address" optionalText fun v s => { s with address := v },
    setting "database" text fun v s => { s with database := v },
    setting "username" optionalText fun v s => { s with username := v },
    setting "password" optionalText fun v s => { s with password := v },
    setting "table" optionalText fun v s => { s with table := v },
    setting "tls_mode" optionalText fun v s => { s with tlsMode := v },
    setting "file" text fun v s => { s with file := v },
    setting "in_memory" boolean fun v s => { s with inMemory := v },
    setting "connect_timeout" duration fun v s => { s with connectTimeout := v }]

def limiterSettings : List (Setting (LimiterSettings Float)) :=
  [setting "enabled" boolean fun v s => { s with enabled := v },
    setting "rate" decimal fun v s => { s with rate := v },
    setting "burst" (natural Text.maxUInt32) fun v s => { s with burst := v },
    setting "ttl" duration fun v s => { s with ttl := v },
    setting "cleanup_interval" duration fun v s => { s with cleanupInterval := v }]

/-- The sections of a file. -/
def sections : List (Setting Settings) :=
  [("server", fun n s =>
      (readSection serverSettings s.server n).map fun v => { s with server := v }),
    ("secrets", fun n s =>
      (readSection secretSettings s.secrets n).map fun v => { s with secrets := v }),
    ("database", fun n s =>
      (readSection databaseSettings s.database n).map fun v => { s with database := v }),
    ("rate_limiter", fun n s =>
      (readSection limiterSettings s.limiter n).map fun v => { s with limiter := v })]

/-- What is told of a fault in a file. -/
def fault (detail : String) : Failure := .badConfiguration ("TOML parse error: " ++ detail)

/-- Reads the settings of a file's text. -/
def read (content : String) : Except Failure Settings :=
  match Toml.read? content with
  | none => .error (fault "not a document")
  | some entries => (readNamed sections entries {}).mapError fault

/-- Says which file a fault of the settings was found in. -/
def inFile (path : String) : Failure → Failure
  | .badConfiguration detail => .badConfiguration ("failed to parse " ++ path ++ ": " ++ detail)
  | other => other

/-- What there is under the path of a settings file. -/
inductive Entry where
  | missing
  | file (content : String)
  /-- Something that cannot be read as a file. -/
  | unreadable
  deriving DecidableEq, Repr

/-- Loads the settings under a path; where there is nothing, all settings have their defaults. -/
def load (path : String) : Entry → Except Failure Settings
  | .missing => .ok {}
  | .file content => (read content).mapError (inFile path)
  | .unreadable => .error (.io ("cannot read " ++ path))

end BurnAfterRead.SettingsFile
