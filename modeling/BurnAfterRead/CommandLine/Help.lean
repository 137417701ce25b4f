import BurnAfterRead.CommandLine.Invocation
import BurnAfterRead.Text.Width

/-!
# Help

What the program tells about itself: its version, its commands, and their parameters, in full or as a
summary with one line for each.
-/

namespace BurnAfterRead.CommandLine

def programName : String := "emberdrop"

def programVersion : String := "0.1.0"

def programAbout : String := "Self-destructing secret exchange"

namespace Help

/-- The line that tells the version. -/
def version : String := programName ++ " " ++ programVersion

/-- A parameter as it is written, in front of what it means. -/
def signature (p : Parameter) : String :=
  let short := match p.short with
    | some c => "-" ++ String.singleton c ++ ", "
    | none => "    "
  short ++ "--" ++ p.long ++ if p.takesValue then " " ++ p.placeholder else ""

/-- What there is to know about a parameter's variable and usual value. -/
def notes (env : String → Option String) (p : Parameter) : List String :=
  let named := match p.envName with
    | some name =>
      if p.showsEnv then ["[env: " ++ name ++ "=" ++ (env name).getD "" ++ "]"]
      else ["[env: " ++ name ++ "]"]
    | none => []
  let standard := match p.standard with
    | some value => ["[default: " ++ value ++ "]"]
    | none => []
  named ++ standard

/-- The values that there are, in one line. -/
def values (p : Parameter) : List String :=
  if p.choices = [] then []
  else ["[possible values: " ++ ", ".intercalate (p.choices.map (·.1)) ++ "]"]

/-- Whether the values have meanings of their own. -/
def explainsValues (p : Parameter) : Bool := p.choices.any fun choice => choice.2 != ""

/-- The lines below a parameter in the full text. -/
def details (env : String → Option String) (p : Parameter) : List String :=
  let notes := notes env p
  if explainsValues p then
    [p.about, "", "Possible values:"] ++
      p.choices.map (fun choice => "- " ++ choice.1 ++ ": " ++ choice.2) ++
      if notes = [] then [] else "" :: notes
  else
    let notes := notes ++ values p
    p.about :: if notes = [] then [] else "" :: notes

/-- An entry of the full text. -/
def fullEntry (head : String) (lines : List String) : List String :=
  ("  " ++ head) :: lines.map fun line => "          " ++ line

/-- Entries of a summary, with all meanings in one column. -/
def summaryEntries (entries : List (String × String)) : List String :=
  let widest := (entries.map fun e => Text.width e.1.toList).foldl max 0
  entries.map fun (head, about) =>
    "  " ++ head ++ String.ofList (List.replicate (widest + 2 - Text.width head.toList) ' ') ++ about

/-- A parameter's meaning in one line. -/
def summary (env : String → Option String) (p : Parameter) : String :=
  " ".intercalate (p.about :: notes env p ++ values p)

/-- The entry that tells how to get help, and the one that tells how to get the version. -/
def closing (command : Option Subcommand) (inFull : Bool) : List (String × String) :=
  let more := if inFull then " (see a summary with '-h')" else " (see more with '--help')"
  ("-h, --help", "Print help" ++ more) ::
    if command.isNone then [("-V, --version", "Print version")] else []

/-- How the program or one of its commands is used. -/
def usage : Option Subcommand → String
  | none => "Usage: " ++ programName ++ " [OPTIONS] <COMMAND>"
  | some command =>
    "Usage: " ++ programName ++ " " ++ command.name ++ " [OPTIONS]" ++
      match Subcommand.positional? (some command) with
      | some p => " " ++ p.placeholder
      | none => ""

/-- The commands, each with its meaning. -/
def commands : List (String × String) :=
  Subcommand.all.map (fun command => (command.name, command.about)) ++
    [("help", "Print this message or the help of the given subcommand(s)")]

/-- The lines of the help on the program or one of its commands. -/
def lines (env : String → Option String) (command : Option Subcommand) (inFull : Bool) :
    List String :=
  let about := match command with
    | some command => command.about
    | none => programAbout
  let titled (title : String) (body : List String) : List String :=
    if body = [] then [] else "" :: title :: body
  let positional := (Subcommand.positional? command).toList
  let parameters := Subcommand.parameters command
  let entries (ps : List (String × Parameter)) (rest : List (String × String)) : List String :=
    if inFull then
      (List.intersperse [""] ((ps.map fun (head, p) => fullEntry head (details env p)) ++
        rest.map fun (head, about) => fullEntry head [about])).flatten
    else summaryEntries ((ps.map fun (head, p) => (head, summary env p)) ++ rest)
  [about, "", usage command] ++
    (if command.isNone then titled "Commands:" (summaryEntries commands) else []) ++
    titled "Arguments:" (entries (positional.map fun p => (p.placeholder, p)) []) ++
    titled "Options:"
      (entries (parameters.map fun p => (signature p, p)) (closing command inFull))

/-- The lines of the help on asking for help. -/
def linesOnHelp : List String :=
  ["Print this message or the help of the given subcommand(s)", "",
    "Usage: " ++ programName ++ " help [COMMAND]...", "", "Arguments:",
    "  [COMMAND]...  Print help for the subcommand(s)"]

end Help

end BurnAfterRead.CommandLine
