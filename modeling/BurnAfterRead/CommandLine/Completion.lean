import BurnAfterRead.CommandLine.Help

/-!
# Completion scripts

Scripts that make a shell complete the commands of the program and their parameters. Each shell has
its own way to say so; what is completed comes from the parameters themselves.
-/

namespace BurnAfterRead.CommandLine.Completion

/-- The ways to write a parameter. -/
def spellings (p : Parameter) : List String :=
  (match p.short with
    | some c => ["-" ++ String.singleton c]
    | none => []) ++ ["--" ++ p.long]

/-- The words that may follow a command, or the program's name. -/
def words (command : Option Subcommand) : List String :=
  (match command with
    | none => Help.commands.map (·.1)
    | some _ =>
      ((Subcommand.positional? command).toList.flatMap fun p => p.choices.map (·.1))) ++
    (Subcommand.parameters command).flatMap spellings ++ ["-h", "--help"] ++
    if command.isNone then ["-V", "--version"] else []

/-- Words with blanks between them. -/
def joined (command : Option Subcommand) : String := " ".intercalate (words command)

/-- A text in single quotes. -/
def quoted (s : String) : String := "'" ++ s.replace "'" "'\\''" ++ "'"

def bash : List String :=
  ["_" ++ programName ++ "() \x7b",
    "    local cur words",
    "    cur=\"$\x7bCOMP_WORDS[COMP_CWORD]\x7d\"",
    "    case \"$\x7bCOMP_WORDS[1]\x7d\" in"] ++
  Subcommand.all.map (fun command =>
    "        " ++ command.name ++ ") words=\"" ++ joined (some command) ++ "\" ;;") ++
  ["        *) words=\"" ++ joined none ++ "\" ;;",
    "    esac",
    "    COMPREPLY=( $(compgen -W \"$\x7bwords\x7d\" -- \"$\x7bcur\x7d\") )",
    "\x7d",
    "",
    "complete -F _" ++ programName ++ " -o bashdefault -o default " ++ programName]

def zsh : List String :=
  ["#compdef " ++ programName,
    "",
    "_" ++ programName ++ "() \x7b",
    "    case \"$\x7bwords[2]\x7d\" in"] ++
  Subcommand.all.map (fun command =>
    "        " ++ command.name ++ ") compadd -- " ++ joined (some command) ++ " ;;") ++
  ["        *) compadd -- " ++ joined none ++ " ;;",
    "    esac",
    "\x7d",
    "",
    "compdef _" ++ programName ++ " " ++ programName]

/-- A line that declares a parameter. -/
def fishParameter (condition : String) (p : Parameter) : String :=
  let short := match p.short with
    | some c => " -s " ++ String.singleton c
    | none => ""
  let values :=
    if p.choices = [] then "" else " -a \"" ++ " ".intercalate (p.choices.map (·.1)) ++ "\""
  "complete -c " ++ programName ++ condition ++ short ++ " -l " ++ p.long ++ " -d " ++ quoted p.about ++
    (if p.takesValue then " -r" else "") ++ values

def fish : List String :=
  let top := " -n \"__fish_use_subcommand\""
  Help.commands.map (fun (name, about) =>
    "complete -c " ++ programName ++ top ++ " -f -a \"" ++ name ++ "\" -d " ++ quoted about) ++
  (Subcommand.parameters none).map (fishParameter top) ++
  Subcommand.all.flatMap fun command =>
    let within := " -n \"__fish_seen_subcommand_from " ++ command.name ++ "\""
    (Subcommand.parameters (some command)).map (fishParameter within) ++
      (Subcommand.positional? (some command)).toList.map fun p =>
        "complete -c " ++ programName ++ within ++ " -f -a \"" ++
          " ".intercalate (p.choices.map (·.1)) ++ "\""

def elvish : List String :=
  ["use builtin;",
    "use str;",
    "",
    "set edit:completion:arg-completer[" ++ programName ++ "] = \x7b|@words|",
    "    var command = ''",
    "    if (> (count $words) 2) \x7b set command = $words[1] \x7d",
    "    var completions = [",
    "        &''= [" ++ joined none ++ "]"] ++
  Subcommand.all.map (fun command =>
    "        &'" ++ command.name ++ "'= [" ++ joined (some command) ++ "]") ++
  ["    ]",
    "    if (has-key $completions $command) \x7b all $completions[$command] \x7d",
    "\x7d"]

def powershell : List String :=
  ["using namespace System.Management.Automation",
    "using namespace System.Management.Automation.Language",
    "",
    "Register-ArgumentCompleter -Native -CommandName '" ++ programName ++ "' -ScriptBlock \x7b",
    "    param($wordToComplete, $commandAst, $cursorPosition)",
    "    $command = if ($commandAst.CommandElements.Count -gt 1) " ++
      "\x7b $commandAst.CommandElements[1].Value \x7d else \x7b '' \x7d",
    "    $completions = switch ($command) \x7b"] ++
  Subcommand.all.map (fun command =>
    "        '" ++ command.name ++ "' \x7b '" ++ joined (some command) ++ "' \x7d") ++
  ["        default \x7b '" ++ joined none ++ "' \x7d",
    "    \x7d",
    "    $completions -split ' ' | Where-Object \x7b $_ -like \"$wordToComplete*\" \x7d",
    "\x7d"]

/-- The lines of a shell's script. -/
def script : Shell → List String
  | .bash => bash
  | .elvish => elvish
  | .fish => fish
  | .powershell => powershell
  | .zsh => zsh

end BurnAfterRead.CommandLine.Completion
