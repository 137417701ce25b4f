import BurnAfterRead.Decimal.Double
import BurnAfterRead.Settings.Basic

/-!
# Parameters of the command line

What can be given on the command line, and how each value is read. Settings can be given as
environment variables as well. A value that cannot be read is refused; where the service's own rules
for durations and drivers refuse it, the reason is told.
-/

namespace BurnAfterRead.CommandLine

/-- The form of log lines. -/
inductive LogFormat where
  | text
  | json
  deriving DecidableEq, Repr

/-- The shells that there are completion scripts for. -/
inductive Shell where
  | bash
  | elvish
  | fish
  | powershell
  | zsh
  deriving DecidableEq, Repr

namespace Shell

def name : Shell → String
  | bash => "bash"
  | elvish => "elvish"
  | fish => "fish"
  | powershell => "powershell"
  | zsh => "zsh"

def all : List Shell := [bash, elvish, fish, powershell, zsh]

def ofName? (name : String) : Option Shell := all.find? fun shell => shell.name == name

end Shell

def LogFormat.ofName? : String → Option LogFormat
  | "text" => some .text
  | "json" => some .json
  | _ => none

/-- The arguments for settings that were given, each under the name of its parameter. -/
structure SettingArguments where
  host : Option String := none
  port : Option Nat := none
  encryptionKey : Option String := none
  defaultTtl : Option Duration := none
  timeout : Option Duration := none
  cleanupInterval : Option Duration := none
  driver : Option Driver := none
  databaseUri : Option String := none
  databaseAddress : Option String := none
  database : Option String := none
  databaseUser : Option String := none
  databasePassword : Option String := none
  databaseTable : Option String := none
  databaseFile : Option String := none
  databaseInMemory : Option Bool := none
  rateLimitRate : Option Float := none
  rateLimitBurst : Option Nat := none
  deriving Repr

/-- What the arguments override. -/
def SettingArguments.overrides (a : SettingArguments) : Overrides where
  host := a.host
  port := a.port
  encryptionKey := a.encryptionKey
  defaultTtl := a.defaultTtl
  timeout := a.timeout
  cleanupInterval := a.cleanupInterval
  driver := a.driver
  databaseUri := a.databaseUri
  databaseAddress := a.databaseAddress
  databaseName := a.database
  databaseUser := a.databaseUser
  databasePassword := a.databasePassword
  databaseTable := a.databaseTable
  databaseFile := a.databaseFile
  databaseInMemory := a.databaseInMemory
  rate := a.rateLimitRate
  burst := a.rateLimitBurst

/-- What was given on the command line. -/
structure Given where
  config : Option String := none
  logFormat : Option LogFormat := none
  settings : SettingArguments := {}
  length : Option Nat := none
  special : Bool := false
  shell : Option Shell := none
  deriving Repr

/-- A command line that is not understood, with the service's own reason if there is one. -/
structure Refusal where
  reason : Option String := none
  deriving DecidableEq, Repr

/-- Takes a value in. -/
abbrev Intake : Type := String → Given → Except Refusal Given

/-- A named parameter, or one that is known by its place. -/
structure Parameter where
  long : String
  short : Option Char := none
  /-- A parameter without a value is a switch. -/
  takesValue : Bool := true
  /-- The environment variable that stands in for it. -/
  envName : Option String := none
  /-- Whether help texts show the value of that variable. -/
  showsEnv : Bool := true
  about : String
  standard : Option String := none
  /-- The values that there are, with what they mean. -/
  choices : List (String × String) := []
  take : Intake

namespace Parameter

/-- The placeholder of the value in help texts. -/
def placeholder (p : Parameter) : String :=
  "<" ++ String.ofList (p.long.toList.map fun c => if c = '-' then '_' else c.toUpper) ++ ">"

end Parameter

/-! ## Reading values -/

/-- Takes a value that some texts stand for. -/
def taking {α : Type} (read : String → Option α) (set : α → Given → Given) : Intake :=
  fun value given =>
    match read value with
    | some a => .ok (set a given)
    | none => .error {}

/-- Takes a value that the service's own rules read. -/
def takingChecked {α : Type} (read : String → Except Failure α) (set : α → Given → Given) : Intake :=
  fun value given =>
    match read value with
    | .ok a => .ok (set a given)
    | .error f => .error ⟨some f.message⟩

/-- Takes a text as it is. -/
def takingText (set : String → Given → Given) : Intake := taking some set

/-- A path has at least one character. -/
def path? (value : String) : Option String := if value = "" then none else some value

/-- A number of at most `limit`; a zero may have a minus sign. -/
def number? (limit : Nat) (value : String) : Option Nat :=
  match value.toList with
  | '-' :: digits => (Text.readDigits digits).filter (· = 0)
  | cs => Text.readUpTo limit cs

/-! ## The parameters -/

/-- Changes the arguments for settings. -/
def Given.onSettings (change : SettingArguments → SettingArguments) (g : Given) : Given :=
  { g with settings := change g.settings }

/-- The parameters that every command takes. -/
def globalParameters : List Parameter :=
  [{ long := "config", short := some 'c', envName := some "EMBERDROP_CONFIG"
     about := "Path to the TOML config file", standard := some Settings.fileName
     take := taking path? fun v g => { g with config := some v } },
   { long := "log-format", envName := some "EMBERDROP_LOG_FORMAT", about := "Log output format"
     standard := some "text"
     choices := [("text", "Human-readable lines"), ("json", "One JSON object per line")]
     take := taking LogFormat.ofName? fun v g => { g with logFormat := some v } }]

/-- The parameters that override settings. -/
def settingParameters : List Parameter :=
  [{ long := "host", envName := some "EMBERDROP_HOST", about := "Address to listen on"
     take := takingText fun v => Given.onSettings ({ · with host := some v }) },
   { long := "port", short := some 'p', envName := some "EMBERDROP_PORT", about := "Port to listen on"
     take := taking (number? Text.maxUInt16) fun v => Given.onSettings ({ · with port := some v }) },
   { long := "encryption-key", envName := some "EMBERDROP_ENCRYPTION_KEY", showsEnv := false
     about := "Key for secrets created without a passphrase"
     take := takingText fun v => Given.onSettings ({ · with encryptionKey := some v }) },
   { long := "default-ttl", envName := some "EMBERDROP_DEFAULT_TTL"
     about := "Lifetime of secrets created without a TTL (e.g. 7d, 12h)"
     take := takingChecked Duration.parse fun v =>
       Given.onSettings ({ · with defaultTtl := some v }) },
   { long := "timeout", envName := some "EMBERDROP_TIMEOUT"
     about := "Timeout for each storage call (e.g. 10s)"
     take := takingChecked Duration.parse fun v => Given.onSettings ({ · with timeout := some v }) },
   { long := "cleanup-interval", envName := some "EMBERDROP_CLEANUP_INTERVAL"
     about := "How often expired secrets are swept (e.g. 5s)"
     take := takingChecked Duration.parse fun v =>
       Given.onSettings ({ · with cleanupInterval := some v }) },
   { long := "driver", envName := some "EMBERDROP_DATABASE_DRIVER"
     about := "Storage driver: memory, mongo, redis, postgres, mssql, mysql, mariadb, sqlite"
     take := takingChecked Driver.parse fun v => Given.onSettings ({ · with driver := some v }) },
   { long := "database-uri", envName := some "EMBERDROP_DATABASE_URI", showsEnv := false
     about := "Full database connection URI"
     take := takingText fun v => Given.onSettings ({ · with databaseUri := some v }) },
   { long := "database-address", envName := some "EMBERDROP_DATABASE_ADDRESS"
     about := "Database host[:port]"
     take := takingText fun v => Given.onSettings ({ · with databaseAddress := some v }) },
   { long := "database", envName := some "EMBERDROP_DATABASE", about := "Database name"
     take := takingText fun v => Given.onSettings ({ · with database := some v }) },
   { long := "database-user", envName := some "EMBERDROP_DATABASE_USER", about := "Database user"
     take := takingText fun v => Given.onSettings ({ · with databaseUser := some v }) },
   { long := "database-password", envName := some "EMBERDROP_DATABASE_PASSWORD", showsEnv := false
     about := "Database password"
     take := takingText fun v => Given.onSettings ({ · with databasePassword := some v }) },
   { long := "database-table", envName := some "EMBERDROP_DATABASE_TABLE"
     about := "Table or collection holding the secrets"
     take := takingText fun v => Given.onSettings ({ · with databaseTable := some v }) },
   { long := "database-file", envName := some "EMBERDROP_DATABASE_FILE"
     about := "SQLite database file"
     take := takingText fun v => Given.onSettings ({ · with databaseFile := some v }) },
   { long := "database-in-memory", envName := some "EMBERDROP_DATABASE_IN_MEMORY"
     about := "Use an in-memory SQLite database"
     choices := [("true", ""), ("false", "")]
     take := taking (fun v => Text.readBool v.toList) fun v =>
       Given.onSettings ({ · with databaseInMemory := some v }) },
   { long := "rate-limit-rate", envName := some "EMBERDROP_RATE_LIMIT_RATE"
     about := "Rate limiter refill, tokens per second"
     take := taking (fun v => Decimal.read? v.toList) fun v =>
       Given.onSettings ({ · with rateLimitRate := some v }) },
   { long := "rate-limit-burst", envName := some "EMBERDROP_RATE_LIMIT_BURST"
     about := "Rate limiter burst size"
     take := taking (number? Text.maxUInt32) fun v =>
       Given.onSettings ({ · with rateLimitBurst := some v }) }]

/-- The parameters of a random string. -/
def randomParameters : List Parameter :=
  [{ long := "length", short := some 'l', about := "Number of characters (max 512)"
     standard := some "16"
     take := taking (fun v => Text.readUpTo Text.maxUInt64 v.toList) fun v g =>
       { g with length := some v } },
   { long := "special", short := some 's', takesValue := false
     about := "Include special characters (_-!?=()&%)"
     take := fun _ g => .ok { g with special := true } }]

/-- The shell of a completion script. -/
def shellParameter : Parameter where
  long := "shell"
  about := "Shell to generate completions for"
  choices := Shell.all.map fun shell => (shell.name, "")
  take := taking Shell.ofName? fun v g => { g with shell := some v }

end BurnAfterRead.CommandLine
