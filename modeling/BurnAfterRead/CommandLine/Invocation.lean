import BurnAfterRead.CommandLine.Parameter

/-!
# Invocations

Reads the arguments of the program. Parameters may stand before and after the command they belong
to; a value follows its parameter or is attached to it, and switches of one letter may be joined. A
value is taken in when the next parameter is met, and the first fault ends the reading. Environment
variables count for parameters that are not among the arguments.
-/

namespace BurnAfterRead.CommandLine

/-- The commands of the program. -/
inductive Subcommand where
  | serve
  | generate
  | config
  | completions
  deriving DecidableEq, Repr

namespace Subcommand

def name : Subcommand → String
  | serve => "serve"
  | generate => "generate"
  | config => "config"
  | completions => "completions"

def about : Subcommand → String
  | serve => "Run the HTTP service"
  | generate => "Print a random string"
  | config => "Show the effective configuration (credentials masked)"
  | completions => "Generate shell completion scripts"

def all : List Subcommand := [serve, generate, config, completions]

def ofName? (name : String) : Option Subcommand := all.find? fun command => command.name == name

/-- The parameters of a command, or of the program itself. -/
def parameters : Option Subcommand → List Parameter
  | some serve | some config => settingParameters ++ globalParameters
  | some generate => randomParameters ++ globalParameters
  | some completions | none => globalParameters

/-- The parameter that is known by its place. -/
def positional? : Option Subcommand → Option Parameter
  | some completions => some shellParameter
  | _ => none

end Subcommand

/-- A command with all that it needs. -/
inductive Command where
  | serve (arguments : SettingArguments)
  | generate (length : Nat) (special : Bool)
  | config (arguments : SettingArguments)
  | completions (shell : Shell)
  deriving Repr

structure Invocation where
  configPath : String
  logFormat : LogFormat
  command : Command
  deriving Repr

/-- Why no command is run. -/
inductive Ending where
  | refused (refusal : Refusal)
  /-- Help on the program or a command was asked for, in full or as a summary. -/
  | help (command : Option Subcommand) (inFull : Bool)
  /-- Help on asking for help. -/
  | helpOnHelp
  | version
  deriving DecidableEq, Repr

/-- How far the arguments of a command, or those before it, were read. -/
structure Progress where
  given : Given := {}
  /-- The parameters that were taken in. -/
  seen : List String := []
  /-- A parameter that was met, and its value once that has come. -/
  pending : Option (Parameter × Option String) := none
  /-- Whether the parameter that is known by its place has come. -/
  placed : Bool := false

namespace Progress

def refuse {α : Type} : Except Ending α := .error (.refused {})

/-- Takes in a parameter, which may be given once. -/
def take (p : Progress) (parameter : Parameter) (value : String) : Except Ending Progress :=
  if p.seen.contains parameter.long then refuse
  else
    match parameter.take value p.given with
    | .ok given => .ok { p with given := given, seen := parameter.long :: p.seen }
    | .error refusal => .error (.refused refusal)

/-- Takes in the parameter that is pending; its value has to have come. -/
def settle (p : Progress) : Except Ending Progress :=
  match p.pending with
  | none => .ok p
  | some (_, none) => refuse
  | some (parameter, some value) => { p with pending := none }.take parameter value

/-- Meets a parameter, perhaps with a value attached. -/
def meet (p : Progress) (parameter : Parameter) (attached : Option String) :
    Except Ending Progress :=
  match parameter.takesValue, attached with
  | true, some value => p.settle.bind fun p => p.take parameter value
  | true, none => p.settle.map fun p => { p with pending := some (parameter, none) }
  | false, none => p.settle.bind fun p => p.take parameter ""
  | false, some _ => refuse

/-- Puts an argument without a name in its place. -/
def place (command : Option Subcommand) (p : Progress) (value : String) : Except Ending Progress :=
  match Subcommand.positional? command, p.placed with
  | some parameter, false =>
    p.settle.map fun p => { p with pending := some (parameter, some value), placed := true }
  | _, _ => refuse

/-- Ends the reading once what is pending was taken in. -/
def leave {α : Type} (p : Progress) (ending : Ending) : Except Ending α :=
  p.settle.bind fun _ => .error ending

/-- Reads a parameter's full name, perhaps with a value behind an equals sign. -/
def readLong (command : Option Subcommand) (p : Progress) (cs : List Char) :
    Except Ending Progress :=
  let (name, attached) : String × Option String := match Text.cutFirst '=' cs with
    | some (name, value) => (String.ofList name, some (String.ofList value))
    | none => (String.ofList cs, none)
  match (Subcommand.parameters command).find? fun parameter => parameter.long == name with
  | some parameter => p.meet parameter attached
  | none =>
    if name = "help" ∧ attached = none then p.leave (.help command true)
    else if name = "version" ∧ attached = none ∧ command = none then p.leave .version
    else refuse

/-- The value that is attached to a letter. -/
def attachedTo : List Char → Option String
  | [] => none
  | '=' :: value => some (String.ofList value)
  | value => some (String.ofList value)

/-- Reads letters that stand for parameters. -/
def readShort (command : Option Subcommand) : Progress → List Char → Except Ending Progress
  | p, [] => .ok p
  | p, c :: rest =>
    match (Subcommand.parameters command).find? fun parameter => parameter.short == some c with
    | some parameter =>
      if parameter.takesValue then p.meet parameter (attachedTo rest)
      else (p.meet parameter none).bind fun p => readShort command p rest
    | none =>
      if c = 'h' then p.leave (.help command false)
      else if c = 'V' ∧ command = none then p.leave .version
      else refuse

/-- What `help` and the names behind it ask for. -/
def helpOn : List String → Ending
  | [] => .help none true
  | [name] =>
    match Subcommand.ofName? name with
    | some command => .help (some command) true
    | none => if name = "help" then .helpOnHelp else .refused {}
  | _ => .refused {}

/-- Reads arguments up to a command, if one may come, or to their end. -/
def readArguments (command : Option Subcommand) :
    Progress → List String → Except Ending (Progress × Option (Subcommand × List String))
  | p, [] => .ok (p, none)
  | p, argument :: rest =>
    match argument.toList with
    | ['-', '-'] => (rest.foldlM (place command) p).map fun p => (p, none)
    | '-' :: '-' :: name => (readLong command p name).bind fun p => readArguments command p rest
    | '-' :: c :: letters =>
      (readShort command p (c :: letters)).bind fun p => readArguments command p rest
    | _ =>
      match p.pending with
      | some (parameter, none) =>
        readArguments command { p with pending := some (parameter, some argument) } rest
      | _ =>
        match command with
        | some _ => (p.place command argument).bind fun p => readArguments command p rest
        | none =>
          if argument = "help" then .error (helpOn rest)
          else
            match Subcommand.ofName? argument with
            | some found => .ok (p, some (found, rest))
            | none => refuse

/-- Takes in the variables of parameters that were not among the arguments. -/
def takeVariables (env : String → Option String) (parameters : List Parameter)
    (p : Progress) : Except Ending Given :=
  parameters.foldlM (fun given parameter =>
    match parameter.envName.bind env with
    | some value =>
      if p.seen.contains parameter.long then .ok given
      else (parameter.take value given).mapError .refused
    | none => .ok given) p.given

/-- Ends the reading of a command's arguments. -/
def finish (env : String → Option String) (command : Option Subcommand) (p : Progress) :
    Except Ending (Progress × Given) :=
  p.settle.bind fun p =>
    (p.takeVariables env (Subcommand.parameters command)).map fun given => (p, given)

end Progress

namespace Invocation

/-- How long a random string is where no length is given. -/
def standardLength : Nat := 16

/-- The command of what was given to it. -/
def commandOf (given : Given) : Subcommand → Except Ending Command
  | .serve => .ok (.serve given.settings)
  | .config => .ok (.config given.settings)
  | .generate => .ok (.generate (given.length.getD standardLength) given.special)
  | .completions =>
    match given.shell with
    | some shell => .ok (.completions shell)
    | none => Progress.refuse

/-- A parameter that may stand before the command and behind it: what stands behind it counts first,
then what stands before it, then the environment. -/
def choose {α : Type} (name : String) (after before : Progress) (field : Given → Option α)
    (given : Given) : Option α :=
  if after.seen.contains name then field after.given
  else if before.seen.contains name then field before.given
  else field given

/-- Reads the arguments of the program. -/
def ofArguments (env : String → Option String) (arguments : List String) :
    Except Ending Invocation := do
  let (before, next) ← Progress.readArguments none {} arguments
  match next with
  | none => Progress.refuse
  | some (name, rest) =>
    let (after, _) ← Progress.readArguments (some name) {} rest
    let (after, given) ← after.finish env (some name)
    let command ← commandOf given name
    let (before, _) ← before.finish env none
    .ok {
      configPath := (choose "config" after before Given.config given).getD Settings.fileName
      logFormat := (choose "log-format" after before Given.logFormat given).getD .text
      command := command }

end Invocation

end BurnAfterRead.CommandLine
