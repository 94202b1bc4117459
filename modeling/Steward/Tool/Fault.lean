import Steward.Exit
import Steward.Time.Instant

/-!
# Faults of analysis tools

Why there is no report of a tool.
-/

namespace Steward.Tool

open Time (Span)

/-- Why there is no report of a tool. -/
inductive Fault where
  | noCommand (tool : String)
  | notStarted (tool : String)
  | timeout (tool : String) (limit : Span)
  /-- The tool ended otherwise than with success, with no report that can be read. -/
  | failed (tool : String) (exit : Exit) (complaint : String)
  /-- The tool ended with success, but its report cannot be read. -/
  | unreadable (tool : String)
  /-- The report is there, but it cannot be fetched. -/
  | unreachable
deriving DecidableEq, Repr

namespace Fault

/-- The lines of a tool's complaints that are kept. -/
def complaintLines : Nat := 10

/-- The text shown for a fault. -/
def message : Fault → String
  | noCommand tool => "No command configured for " ++ tool
  | notStarted tool => "Failed to start " ++ tool
  | timeout tool limit => tool ++ " did not finish within " ++ limit.text
  | failed tool exit complaint => tool ++ " exited with code " ++ exit.text ++ ": " ++ complaint
  | unreadable tool => tool ++ " produced unreadable output"
  | unreachable => "I/O error"

/-- The kind of a fault. -/
def kind : Fault → String
  | noCommand _ => "EmptyCommand"
  | notStarted _ => "Spawn"
  | timeout _ _ => "Timeout"
  | failed _ _ _ => "Failed"
  | unreadable _ => "InvalidOutput"
  | unreachable => "Io"

/-- Whether the text of a fault says all that is known of it. -/
def isWorded : Fault → Bool
  | noCommand _ | timeout _ _ | failed _ _ _ => true
  | notStarted _ | unreadable _ | unreachable => false

instance : Json.Encode Fault :=
  ⟨fun e => .ofFault e.kind (if e.isWorded then some e.message else none)⟩

end Fault

end Steward.Tool
