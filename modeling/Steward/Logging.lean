import Steward.Json.Basic

/-!
# Log settings

What is logged and how, with a preset for each way of running the program.
-/

namespace Steward

open Json (field)

/-- How much is logged. -/
inductive Logging.Level where
  | info
  | debug
deriving DecidableEq, Repr

/-- The written name of a level. -/
def Logging.Level.name : Logging.Level → String
  | info => "INFO"
  | debug => "DEBUG"

/-- What is logged and how. -/
structure Logging where
  level : Logging.Level := .info
  /-- Whether entries are JSON documents. -/
  json : Bool := false
  /-- Whether the start and the end of spans are logged. -/
  spanEvents : Bool := false
  /-- Whether entries name the place that they come from. -/
  fileLine : Bool := true
  threadNames : Bool := false
  /-- Whether entries go to standard error. -/
  stderr : Bool := false
deriving DecidableEq, Repr

namespace Logging

/-- The preset for development. -/
def development : Logging := { level := .debug, spanEvents := true, threadNames := true }

/-- The preset for production. -/
def production : Logging := { json := true, fileLine := false }

/-- The preset for a command line tool, whose standard output is its result. -/
def commandLine (verbose : Bool) : Logging :=
  { level := if verbose then .debug else .info, fileLine := false, stderr := true }

instance : Json.Encode Logging :=
  ⟨fun l => .object [field "level" l.level.name, field "json" l.json,
    field "span_events" l.spanEvents, field "file_line" l.fileLine,
    field "thread_names" l.threadNames, field "stderr" l.stderr]⟩

end Logging

end Steward
