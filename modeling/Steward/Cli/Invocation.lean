import Steward.Ci.Order
import Steward.Cli.Arguments
import Steward.Output.Format

/-!
# Invocations

What the program is asked to do on its command line.
-/

namespace Steward.Cli

/-- What the program is to do. -/
inductive Action where
  /-- Run the operation of a name; the token is the value of a variable. -/
  | run (operation : String) (order : Ci.Order) (tokenVariable : String) (isDry : Bool)
  /-- List the operations. -/
  | list
  /-- Turn the output of a tool into annotations. -/
  | annotate (format : Output.Format) (root : Option String)
  /-- Lint a file, given its tree; with a project also its reports. -/
  | lint (tree source : String) (name project : Option String) (fixes : Bool)

/-- What the program is asked to do. -/
structure Invocation where
  /-- The file of the configuration. -/
  config : Option String
  isVerbose : Bool
  action : Action

namespace Invocation

/-- The flags of every command. -/
def commonFlags : List Flag := [⟨"config", none, .path⟩, ⟨"verbose", some 'v', .nothing⟩]

/-- The flag that asks for help. -/
def helpFlag : Flag := { name := "help", letter := some 'h' }

/-- The words of the program itself. -/
def grammar : Grammar where
  flags := commonFlags
  informing := [helpFlag, { name := "version", letter := some 'V' }]
  commands := ["run", "list", "annotate", "lint", "help"]

/-- The words of a command. -/
def commandGrammar (flags : List Flag) (operands : Nat) : Grammar where
  flags := commonFlags ++ flags
  informing := [helpFlag]
  operands

/-- An option that takes a text. -/
def text (name : String) : Flag := { name, taking := .anyText }

/-- An option that takes a path. -/
def path (name : String) : Flag := { name, taking := .path }

/-- A value that a command cannot do without. -/
def needed {α : Type} (a : Option α) : Except Usage α :=
  match a with
  | some a => .ok a
  | none => .error .wrong

/-- The grammar of a command. -/
def grammarOf (command : String) : Grammar :=
  match command with
  | "run" => commandGrammar [path "source", text "version", text "git-sha", text "package",
      text "registry-token-env", { name := "dry-run" }] 1
  | "annotate" => commandGrammar
      [{ name := "format", taking := .oneOf (Output.Format.all.map (·.name)) }, path "root"] 0
  | "lint" => commandGrammar
      [path "ast", path "source", text "file-name", path "project", { name := "fix" }] 0
  | _ => commandGrammar [] 0

/-- What a command is to do. -/
def actionOf (command : String) (a : Arguments) : Except Usage Action := do
  let value (name : String) := a.options.lookup name
  match command with
  | "run" =>
    let order : Ci.Order :=
      { source := (value "source").getD ".", version := value "version"
        commit := value "git-sha", package := value "package" }
    return .run (← needed a.operands.head?) order
      ((value "registry-token-env").getD "REGISTRY_TOKEN") (a.has "dry-run")
  | "annotate" =>
    return .annotate (← needed ((value "format").bind Output.Format.ofName?)) (value "root")
  | "lint" =>
    return .lint (← needed (value "ast")) (← needed (value "source")) (value "file-name")
      (value "project") (a.has "fix")
  | _ => return .list

/-- Whether words after `help` name nothing or a command. -/
def isHelpTopic : List String → Bool
  | [] => true
  | [topic] => grammar.commands.contains topic
  | _ => false

/-- The invocation of a command line. Options of every command may stand before the command or
behind it, where they count. -/
def read (words : List String) : Except Usage Invocation := do
  let before ← Arguments.read grammar {} words
  let (command, rest) ← needed before.command
  if command = "help" then throw (if isHelpTopic rest then .information else .wrong)
  let after ← Arguments.read (grammarOf command) {} rest
  return { config := (after.options.lookup "config").or (before.options.lookup "config")
           isVerbose := after.has "verbose" || before.has "verbose"
           action := ← actionOf command after }

/-- What is printed where the command line asks for it, or is wrong. -/
def help : String :=
  String.join (List.map (· ++ "\n") [
    "Usage: steward [--config FILE] [--verbose] COMMAND",
    "",
    "  run OPERATION [--source DIR] [--version TEXT] [--git-sha TEXT] [--package NAME]",
    "      [--registry-token-env NAME] [--dry-run]    run an operation",
    "  list                                           list the operations",
    "  annotate --format FORMAT [--root DIR]          turn a tool's output into annotations",
    "  lint --ast FILE --source FILE [--file-name NAME] [--project DIR] [--fix]",
    "                                                 lint a file",
    "  help [COMMAND]                                 print this text"])

end Invocation

end Steward.Cli
