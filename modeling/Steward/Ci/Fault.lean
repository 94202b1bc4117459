import Steward.Ci.Step
import Steward.Lint.Linter
import Steward.Text.Quoted
import Steward.Tool.Fault

/-!
# Faults of CI work

Why a command or an operation ended without a result.
-/

namespace Steward.Ci

open Time (Span)

/-- Why a configuration cannot be used. -/
inductive Config.Fault where
  /-- The text is no configuration, or a file of it cannot be read. -/
  | unreadable
  | noTime
  | declaredTwice (package : String)
  | undeclaredBackend (package : String)
deriving DecidableEq, Repr

namespace Config.Fault

/-- The cause of a fault, where it lies in what the configuration says. -/
def cause? : Fault → Option String
  | unreadable => none
  | noTime => some "step_timeout_secs must be positive"
  | declaredTwice package => some ("package " ++ package ++ " is declared twice")
  | undeclaredBackend package => some ("backend package " ++ package ++ " is not declared")

end Config.Fault

/-- Why work ended without a result. -/
inductive Fault where
  | stepFailed (step : String) (exit : Exit) (complaint : String)
  | stepTimeout (step : String) (limit : Span)
  /-- The cause is given where the program itself words it. -/
  | notStarted (step : String) (cause : Option String)
  | unknownOperation (name : String)
  | missingArgument (operation argument : String)
  | unknownPackage (name : String)
  /-- The output of a command did not hold the expected text. -/
  | smokeTest (expected command : String)
  | config (fault : Config.Fault)
  | lintConfig (refusal : Lint.Config.Refusal)
  | lint (refusal : Lint.Linter.Refusal)
  /-- The output of a tool is no document that annotations can be read from. -/
  | output
  | tool (fault : Tool.Fault)
  | io
deriving DecidableEq, Repr

namespace Fault

/-- The short name of a kind of fault. -/
def kind : Fault → String
  | stepFailed .. => "step_failed"
  | stepTimeout .. => "step_timeout"
  | notStarted .. => "spawn"
  | unknownOperation .. => "unknown_operation"
  | missingArgument .. => "missing_argument"
  | unknownPackage .. => "unknown_package"
  | smokeTest .. => "smoke_test"
  | config .. => "config"
  | lintConfig .. | lint .. => "lint"
  | output => "annotation"
  | tool .. => "tool"
  | io => "io"

/-- The text shown for a fault, where the program itself words it. -/
def message? : Fault → Option String
  | stepFailed step exit complaint =>
    some ("Step '" ++ step ++ "' failed with exit code " ++ exit.text ++ "\n" ++ complaint)
  | stepTimeout step limit =>
    some ("Step '" ++ step ++ "' did not finish within " ++ limit.text)
  | notStarted step cause => cause.map (("Failed to start step '" ++ step ++ "': ") ++ ·)
  | unknownOperation name => some ("Unknown operation: " ++ name)
  | missingArgument operation argument =>
    some ("Operation " ++ operation ++ " requires --" ++ argument)
  | unknownPackage name => some ("Unknown package: " ++ name)
  | smokeTest expected command =>
    some ("Smoke test failed: expected " ++ Text.quoted expected ++ " in output of " ++ command)
  | config fault => fault.cause?.map ("Configuration error: " ++ ·)
  | lintConfig _ | lint _ | output | tool _ | io => none

/-- The text shown for a fault, whoever words it. -/
def message (e : Fault) : String :=
  match e with
  | tool fault => fault.message
  | lintConfig refusal => refusal.message
  | lint .notAProgram => Lint.Linter.notAProgram
  | lint .unreadable => "Invalid AST JSON"
  | output => "Invalid JSON"
  | config fault => "Configuration error: " ++ fault.cause?.getD "unreadable"
  | _ => e.message?.getD "I/O error"

/-- What a fault goes back to in another part of the program. -/
def origin? : Fault → Option Json
  | lintConfig refusal => some (Json.encode refusal)
  | lint refusal => some (Json.encode refusal)
  | output => some (.ofFault "Json" none)
  | _ => none

instance : Json.Encode Fault where
  encode e :=
    match e.origin? with
    | some origin => .object [Json.field "error" e.kind, ("cause", origin)]
    | none => .ofFault e.kind e.message?

end Fault

end Steward.Ci
