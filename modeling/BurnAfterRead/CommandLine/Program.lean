import BurnAfterRead.CommandLine.Completion
import BurnAfterRead.Crypto.Generator
import BurnAfterRead.Settings.File
import BurnAfterRead.Settings.Shown
import BurnAfterRead.Text.Table

/-!
# Commands

What the commands write, line by line, and how the program ends. Marks in front of a line tell what
kind of message it is. Serving requests goes on where the settings are known.
-/

namespace BurnAfterRead.CommandLine

/-- What was written, and the code that the program ends with. -/
structure Output where
  stdout : List String := []
  stderr : List String := []
  exitCode : Nat := 0
  deriving DecidableEq, Repr

/-- What a command comes to. -/
inductive Outcome where
  | ended (output : Output)
  | serves (settings : Settings)

namespace Message

def success (text : String) : String := "✓ " ++ text

def error (text : String) : String := "✗ " ++ text

def warning (text : String) : String := "⚠ " ++ text

def info (text : String) : String := "ℹ " ++ text

def tip (text : String) : String := "→ " ++ text

end Message

namespace Output

/-- The output that ends with a failure. -/
def fail (o : Output) (f : Failure) : Output :=
  { o with stderr := o.stderr ++ [Message.error f.message], exitCode := 1 }

end Output

/-- Loads the settings under a path and lays the arguments over them. -/
def loadSettings (path : String) (entry : SettingsFile.Entry) (arguments : SettingArguments) :
    Except Failure Settings :=
  (SettingsFile.load path entry).map fun settings => settings.apply arguments.overrides

/-- Says where the settings come from. -/
def originOf (path : String) : SettingsFile.Entry → String
  | .missing => "No config file at " ++ path ++ ", showing defaults with overrides"
  | _ => "Config file: " ++ path

/-- Shows settings, and whether they can be served with. -/
def showSettings (settings : Settings) : Output :=
  let table := Text.Table.draw ("Setting", "Value") settings.rows
  match settings.validate with
  | .ok () => { stdout := table ++ [Message.success "Configuration is valid."] }
  | .error f =>
    let tips :=
      if settings.secrets.encryptionKey = "" then
        [Message.tip
          "Set EMBERDROP_ENCRYPTION_KEY or add secrets.encryption_key to the config file."]
      else []
    { stdout := table ++ tips, stderr := [Message.warning f.message] }

/-- Shows the settings under a path, with the arguments laid over them. -/
def configure (path : String) (entry : SettingsFile.Entry) (arguments : SettingArguments) : Output :=
  let origin := Message.info (originOf path entry)
  match loadSettings path entry arguments with
  | .error f => Output.fail { stdout := [origin] } f
  | .ok settings =>
    let shown := showSettings settings
    { shown with stdout := origin :: shown.stdout }

/-- Writes a random string; a length that is too large is pointed out. -/
def generate (length : Nat) (special : Bool) (letters : Nat → Nat) : Output where
  stdout := [Crypto.generate length special letters]
  stderr :=
    if length > Crypto.maxGeneratedLength then
      [Message.warning ("length " ++ toString length ++ " exceeds the maximum, using " ++
        toString Crypto.maxGeneratedLength)]
    else []

/-- Runs a command; `entry` is what there is under the path of the settings. -/
def Invocation.run (letters : Nat → Nat) (entry : SettingsFile.Entry) (i : Invocation) : Outcome :=
  match i.command with
  | .serve arguments =>
    match loadSettings i.configPath entry arguments with
    | .ok settings => .serves settings
    | .error f => .ended (Output.fail {} f)
  | .generate length special => .ended (CommandLine.generate length special letters)
  | .config arguments => .ended (configure i.configPath entry arguments)
  | .completions shell => .ended { stdout := Completion.script shell }

/-- What is written where no command is run. -/
def Ending.output (env : String → Option String) : Ending → Output
  | .refused refusal =>
    { stderr := ["error: " ++ refusal.reason.getD "the arguments are not understood", "",
        Help.usage none, "", "For more information, try '--help'."]
      exitCode := 2 }
  | .help command inFull => { stdout := Help.lines env command inFull }
  | .helpOnHelp => { stdout := Help.linesOnHelp }
  | .version => { stdout := [Help.version] }

end BurnAfterRead.CommandLine
