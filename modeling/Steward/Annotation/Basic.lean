import Steward.Json.Record

/-!
# Annotations

One message of a tool, pinned to a place in a source file, and how many of them there are of each
level.
-/

namespace Steward

/-- How grave an annotation is. -/
inductive Annotation.Level where
  | error
  | warning
  | notice
deriving DecidableEq, Repr

namespace Annotation.Level

/-- The written name. -/
def name : Level → String
  | error => "error"
  | warning => "warning"
  | notice => "notice"

/-- The level of a written name. -/
def read? : String → Option Level
  | "error" => some error
  | "warning" => some warning
  | "notice" => some notice
  | _ => none

/-- The text shown for a name that no level has. -/
def unknown (name : String) : String := "Unknown annotation level: " ++ name

@[simp] theorem read?_name (l : Level) : read? l.name = some l := by cases l <;> rfl

theorem read?_eq_some_iff {name : String} {l : Level} : read? name = some l ↔ name = l.name := by
  constructor
  · intro h
    unfold read? at h
    split at h <;> cases h <;> rfl
  · intro h
    rw [h, read?_name]

theorem name_injective {l m : Level} (h : l.name = m.name) : l = m := by
  have hread := congrArg read? h
  simpa using hread

end Annotation.Level

/-- A message about a place in a source file. -/
structure Annotation where
  level : Annotation.Level
  file : String
  line : UInt32
  column : UInt32
  endLine : Option UInt32 := none
  endColumn : Option UInt32 := none
  title : Option String := none
  message : String
deriving DecidableEq, Repr

namespace Annotation

/-- Reads an annotation. -/
def decode : Json.Decoder Annotation :=
  (mk <$> .required "level" (Json.Decoder.name Level.read?) <*>
    .required "file" Json.Decoder.string <*> .required "line" Json.Decoder.uint32 <*>
    .required "col" Json.Decoder.uint32 <*>
    .defaulted "end_line" (Json.Decoder.option Json.Decoder.uint32) none <*>
    .defaulted "end_column" (Json.Decoder.option Json.Decoder.uint32) none <*>
    .defaulted "title" (Json.Decoder.option Json.Decoder.string) none <*>
    .required "message" Json.Decoder.string : Json.Fields _).read

/-- The document of an annotation. -/
def toJson (a : Annotation) : Json :=
  .object ([("level", .text a.level.name), ("file", .text a.file), ("line", .int a.line.toNat),
    ("col", .int a.column.toNat)] ++ Json.fieldOf "end_line" a.endLine ++
    Json.fieldOf "end_column" a.endColumn ++ Json.fieldOf "title" a.title ++
    [("message", .text a.message)])

instance : Json.Encode Annotation := ⟨toJson⟩

/-! ## Summaries -/

/-- How many annotations there are of each level. -/
structure Summary where
  errors : Nat := 0
  warnings : Nat := 0
  notices : Nat := 0
deriving DecidableEq, Repr

namespace Summary

/-- The summary of a list of annotations. -/
def of (as : List Annotation) : Summary :=
  { errors := as.countP (·.level = .error)
    warnings := as.countP (·.level = .warning)
    notices := as.countP (·.level = .notice) }

/-- How many annotations there are. -/
def total (s : Summary) : Nat := s.errors + s.warnings + s.notices

/-- Whether there are errors. -/
def hasErrors (s : Summary) : Bool := 0 < s.errors

instance : Json.Encode Summary :=
  ⟨fun s => .object [Json.field "errors" s.errors, Json.field "warnings" s.warnings,
    Json.field "notices" s.notices]⟩

/-- The written form. -/
def text (s : Summary) : String :=
  Text.decimal s.errors ++ " error(s), " ++ Text.decimal s.warnings ++ " warning(s), " ++
    Text.decimal s.notices ++ " notice(s)"

/-- The counts, and what follows from them. -/
def document (s : Summary) : Json :=
  .object [Json.field "counts" s, Json.field "total" s.total, Json.field "has_errors" s.hasErrors,
    Json.field "display" s.text]

end Summary

end Annotation

end Steward
