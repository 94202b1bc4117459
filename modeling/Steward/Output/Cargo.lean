import Steward.Json.Reader
import Steward.Json.Record
import Steward.Output.Place
import Steward.Output.Reader
import Steward.Text.Blank

/-!
# Output of the formatter and messages as documents

Two outputs in which each line stands for itself: the formatter's, with a line
`Diff in src/a.rs at line 3:` or `Diff in src/a.rs:3:` for each place that it would change, and the
messages of the compiler as one JSON document a line. Of these only a message with a primary span
gives an annotation; other documents, and lines that hold none, are passed over.
-/

namespace Steward.Output.CargoFormat

open Text

/-- Reads the end of a line that gives the number of a line after a word: what stands before the
word, and the digits. -/
def numbered? (word s : List Char) : Option (List Char × List Char) := do
  let s ← before? [':'] (trimEnd s)
  let digits := (s.reverse.takeWhile isDecimal).reverse
  let file ← before? word (s.reverse.dropWhile isDecimal).reverse
  if digits.isEmpty || file.isEmpty then none else return (file, digits)

/-- The file and the line of a difference. -/
def difference? (line : List Char) : Option (List Char × List Char) := do
  let s ← after? "Diff in ".toList line
  (numbered? " at line ".toList s).or (numbered? [':'] s)

/-- The annotation of a difference. -/
def report (file digits : List Char) : Annotation :=
  { level := .error, file := String.ofList file, line := position digits, column := 1
    title := some "rustfmt", message := "Code is not formatted. Run `cargo fmt` to fix." }

/-- The reader of the formatter's output; each line stands for itself. -/
def reader : Reader Unit where
  start := ()
  step _ line := (((difference? line).map fun (file, digits) => report file digits).toList, ())
  finish _ := []

end Steward.Output.CargoFormat

namespace Steward.Output.CargoMessage

open Json (Decoder Fields)

/-- A range of a source file that a message is about. -/
structure Span where
  file : String
  lineStart : UInt32
  lineEnd : UInt32
  columnStart : UInt32
  columnEnd : UInt32
  isPrimary : Bool

/-- Reads a range. -/
def Span.decode : Decoder Span :=
  (mk <$> .required "file_name" Decoder.string <*> .required "line_start" Decoder.uint32 <*>
    .required "line_end" Decoder.uint32 <*> .required "column_start" Decoder.uint32 <*>
    .required "column_end" Decoder.uint32 <*> .required "is_primary" Decoder.flag : Fields _).read

/-- Reads the code of a message. -/
def decodeCode : Decoder String := (.required "code" Decoder.string : Fields _).read

/-- A message of the compiler. -/
structure Message where
  text : String
  code : Option String
  level : String
  spans : List Span

/-- Reads a message. -/
def Message.decode : Decoder Message :=
  (mk <$> .required "message" Decoder.string <*> .optional "code" decodeCode <*>
    .required "level" Decoder.string <*> .defaulted "spans" (Decoder.list Span.decode) [] :
    Fields _).read

/-- Reads a document: its reason, and the message if there is one. -/
def decode : Decoder (String × Option Message) :=
  (Prod.mk <$> .required "reason" Decoder.string <*> .optional "message" Message.decode :
    Fields _).read

/-- The level of a message's level. -/
def levelOf : String → Annotation.Level
  | "warning" => .warning
  | "note" | "help" | "failure-note" => .notice
  | _ => .error

/-- The annotation of a message, pinned to its first primary span. -/
def Message.annotation? (m : Message) : Option Annotation :=
  (m.spans.find? (·.isPrimary)).map fun s =>
    { level := levelOf m.level, file := s.file, line := s.lineStart, column := s.columnStart
      endLine := some s.lineEnd, endColumn := some s.columnEnd, title := m.code, message := m.text }

/-- The annotation of a line. -/
def ofLine? (line : List Char) : Option Annotation := do
  if (Text.trimStart line).head? = some '\x7b' then
    let document ← (Json.read (String.ofList line)).toOption
    let (reason, message) ← (decode document).toOption
    if reason = "compiler-message" then message.bind (·.annotation?) else none
  else none

/-- The reader of the documents; each line stands for itself. -/
def reader : Reader Unit where
  start := ()
  step _ line := ((ofLine? line).toList, ())
  finish _ := []

end Steward.Output.CargoMessage
