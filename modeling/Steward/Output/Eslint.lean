import Steward.Annotation.Basic
import Steward.Json.Reader
import Steward.Path

/-!
# Results of ESLint

One JSON document: a list of files with their messages. Messages of severity 2 are errors, those of
severity 1 warnings; others are passed over.
-/

namespace Steward.Output.Eslint

open Json (Decoder Fields)

/-- A message about a file. -/
structure Message where
  rule : Option String
  severity : Nat
  text : String
  line : Option UInt32
  column : Option UInt32
  endLine : Option UInt32
  endColumn : Option UInt32

/-- Reads a message. -/
def Message.decode : Decoder Message :=
  (mk <$> .optional "ruleId" Decoder.string <*> .required "severity" (Decoder.unsigned 256) <*>
    .required "message" Decoder.string <*> .optional "line" Decoder.uint32 <*>
    .optional "column" Decoder.uint32 <*> .optional "endLine" Decoder.uint32 <*>
    .optional "endColumn" Decoder.uint32 : Fields _).read

/-- Reads a file's path and its messages. -/
def decodeFile : Decoder (String × List Message) :=
  (Prod.mk <$> .required "filePath" Decoder.string <*>
    .defaulted "messages" (Decoder.list Message.decode) [] : Fields _).read

/-- The level of a severity. -/
def level? : Nat → Option Annotation.Level
  | 2 => some .error
  | 1 => some .warning
  | _ => none

/-- The annotation of a message about a file. -/
def Message.annotation? (file : String) (m : Message) : Option Annotation :=
  (level? m.severity).map fun level =>
    { level, file, line := m.line.getD 1, column := m.column.getD 1, endLine := m.endLine
      endColumn := m.endColumn, title := m.rule, message := m.text }

/-- The annotations of a document, the paths in them taken relative to `root`; `none` for a text
that is no such document. -/
def read? (root : Option String) (output : String) : Option (List Annotation) := do
  let document ← (Json.read output).toOption
  let files ← (Decoder.list decodeFile document).toOption
  return files.flatMap fun (path, messages) =>
    messages.filterMap (·.annotation? (Path.relativeTo root path))

end Steward.Output.Eslint
