import Steward.Annotation.Basic
import Steward.Lint.Fix

/-!
# Diagnostics

What a lint rule found at a place in a file, and how grave that is.
-/

namespace Steward.Lint

/-! ## Severities -/

/-- How grave the findings of a rule are. -/
inductive Severity where
  | off
  | warn
  | error
deriving DecidableEq, Repr

namespace Severity

/-- The written name. -/
def name : Severity → String
  | off => "off"
  | warn => "warn"
  | error => "error"

/-- The severity of a written name. -/
def ofName? : String → Option Severity
  | "off" => some off
  | "warn" => some warn
  | "error" => some error
  | _ => none

/-- The severity of a written name or number. -/
def read? : String → Option Severity
  | "0" => some off
  | "1" => some warn
  | "2" => some error
  | s => ofName? s

/-- The text shown for a name that no severity has. -/
def unknown (name : String) : String :=
  "Invalid lint configuration: Unknown severity: " ++ name

@[simp] theorem read?_name (s : Severity) : read? s.name = some s := by cases s <;> rfl

/-- The level of an annotation about a finding. -/
def level : Severity → Annotation.Level
  | error => .error
  | off | warn => .warning

end Severity

/-! ## Findings -/

/-- A finding of a rule. -/
structure Diagnostic where
  rule : String
  messageId : String
  message : String
  severity : Severity
  file : String
  line : UInt32
  column : UInt32
  endLine : Option UInt32
  endColumn : Option UInt32
  fix : Option Fix
deriving DecidableEq, Repr

namespace Diagnostic

/-- The annotation of a finding. -/
def toAnnotation (d : Diagnostic) : Annotation :=
  { level := d.severity.level, file := d.file, line := d.line, column := d.column
    endLine := d.endLine, endColumn := d.endColumn, title := some d.rule, message := d.message }

/-- Whether `a` is listed no later than `b`: by line, then by column. -/
def before (a b : Diagnostic) : Bool := a.line < b.line || a.line = b.line && a.column ≤ b.column

/-- The source of a file with the fixes of its findings applied. -/
def fixAll (source : String) (ds : List Diagnostic) : Fix.Outcome :=
  Fix.applyAll source (ds.filterMap (·.fix))

/-- The document of a finding. -/
def toJson (d : Diagnostic) : Json :=
  .object ([("rule", .text d.rule), ("message_id", .text d.messageId), ("message", .text d.message),
    ("severity", .text d.severity.name), ("file", .text d.file), ("line", .int d.line.toNat),
    ("column", .int d.column.toNat)] ++ Json.fieldOf "end_line" d.endLine ++
    Json.fieldOf "end_column" d.endColumn ++ Json.fieldOf "fix" d.fix)

instance : Json.Encode Diagnostic := ⟨toJson⟩

end Diagnostic

end Steward.Lint
