import Steward.Annotation.Basic
import Steward.Text.Search
import Steward.Word

/-!
# Annotation lines

The one-line form of an annotation, which build hosts show beside the source:
`::error file=src/a.ts,line=3,col=5,title=T::message`. A percent sign, a carriage return and a line
feed are written as `%25`, `%0D` and `%0A`, and in the properties also a colon and a comma, as `%3A`
and `%2C`.

* `escape`, `unescape`: texts are written and read by replacing one character or escape after the
  other.
-/

namespace Steward.Annotation

open Text

/-! ## Escapes -/

/-- The written form of a message. The percent sign comes first, so that those of the escapes are
not written once more. -/
def escape (s : List Char) : List Char :=
  replaceAll ['\n'] ['%', '0', 'A'] <| replaceAll ['\r'] ['%', '0', 'D'] <|
    replaceAll ['%'] ['%', '2', '5'] s

/-- The written form of the value of a property. -/
def escapeProperty (s : List Char) : List Char :=
  replaceAll [','] ['%', '2', 'C'] <| replaceAll [':'] ['%', '3', 'A'] (escape s)

/-- The text of a written form. The percent sign comes last, so that what it gives is not read as
the start of another escape. -/
def unescape (s : List Char) : List Char :=
  replaceAll ['%', '2', '5'] ['%'] <| replaceAll ['%', '2', 'C'] [','] <|
    replaceAll ['%', '3', 'A'] [':'] <| replaceAll ['%', '0', 'A'] ['\n'] <|
      replaceAll ['%', '0', 'D'] ['\r'] s

/-! ## Writing -/

/-- The word at the start of an annotation line and before its message. -/
def mark : List Char := [':', ':']

/-- The written form of a property with a number. -/
def numberProperty (name : String) (n : UInt32) : List Char :=
  name.toList ++ '=' :: numeral n.toNat

/-- The written form of a property with a text. -/
def textProperty (name value : String) : List Char :=
  name.toList ++ '=' :: escapeProperty value.toList

/-- The written properties of an annotation. -/
def properties (a : Annotation) : List (List Char) :=
  [textProperty "file" a.file, numberProperty "line" a.line, numberProperty "col" a.column] ++
    (a.endLine.map (numberProperty "endLine")).toList ++
    (a.endColumn.map (numberProperty "endColumn")).toList ++
    (a.title.map (textProperty "title")).toList

/-- The characters of an annotation's line, without a line end. -/
def lineChars (a : Annotation) : List Char :=
  mark ++ a.level.name.toList ++ ' ' :: List.intercalate [','] a.properties ++ mark ++
    escape a.message.toList

/-- The line of an annotation, without a line end. -/
def toLine (a : Annotation) : String := String.ofList a.lineChars

/-- The lines of annotations, each with a line feed at its end. -/
def render (as : List Annotation) : String :=
  String.ofList (as.flatMap fun a => a.lineChars ++ ['\n'])

/-! ## Reading -/

/-- Why a line was refused. -/
inductive Fault where
  | malformed (line : String)
  | unknownLevel (name : String)
  | missing (property : String)
  | number (property value : String)
deriving DecidableEq, Repr

/-- The text of a refusal. -/
def Fault.message : Fault → String
  | malformed line => "Not an annotation line: " ++ line
  | unknownLevel name => Level.unknown name
  | missing property => "Missing annotation property: " ++ property
  | number property value => "Invalid value for " ++ property ++ ": " ++ value

/-- The kind of a refusal. -/
def Fault.kind : Fault → String
  | malformed _ => "Malformed"
  | unknownLevel _ => "UnknownLevel"
  | missing _ => "MissingProperty"
  | number _ _ => "InvalidNumber"

instance : Json.Encode Fault := ⟨fun e => .ofFault e.kind e.message⟩

/-- The properties that were read so far. -/
structure Properties where
  file : Option String := none
  line : Option UInt32 := none
  column : Option UInt32 := none
  endLine : Option UInt32 := none
  endColumn : Option UInt32 := none
  title : Option String := none
deriving DecidableEq

/-- Reads the number of a property. -/
def readNumber (property : String) (value : List Char) : Except Fault UInt32 :=
  match ofUnsigned? Word.count32 value with
  | some n => .ok (UInt32.ofNat n)
  | none => .error (.number property (String.ofList value))

/-- The text of a property. -/
def readText (value : List Char) : String := String.ofList (unescape value)

/-- The properties with one more read; a property that is not known is passed over. -/
def Properties.put (p : Properties) (name : String) (value : List Char) : Except Fault Properties :=
  match name with
  | "file" => .ok { p with file := some (readText value) }
  | "line" => (readNumber "line" value).map fun n => { p with line := some n }
  | "col" => (readNumber "col" value).map fun n => { p with column := some n }
  | "endLine" => (readNumber "endLine" value).map fun n => { p with endLine := some n }
  | "endColumn" => (readNumber "endColumn" value).map fun n => { p with endColumn := some n }
  | "title" => .ok { p with title := some (readText value) }
  | _ => .ok p

/-- Reads one property after the other; the last of several of one name counts. -/
def Properties.read (malformed : Fault) : Properties → List (List Char) → Except Fault Properties
  | p, [] => .ok p
  | p, piece :: rest =>
    match cut? ['='] piece with
    | none => .error malformed
    | some (name, value) => do
      let p ← p.put (String.ofList name) value
      read malformed p rest

/-- A property that must be there. -/
def Properties.need {α : Type} (name : String) : Option α → Except Fault α
  | some a => .ok a
  | none => .error (.missing name)

/-- The annotation of a level, its properties and its message. -/
def Properties.toAnnotation (p : Properties) (level : Level) (message : String) :
    Except Fault Annotation := do
  let file ← need "file" p.file
  let line ← need "line" p.line
  let column ← need "col" p.column
  return { level, file, line, column, endLine := p.endLine, endColumn := p.endColumn
           title := p.title, message }

/-- Whether a character ends a line. -/
def isLineEnd (c : Char) : Bool := c = '\r' || c = '\n'

/-- Reads an annotation line. -/
def ofChars (s : List Char) : Except Fault Annotation := do
  let s := trimEndBy isLineEnd s
  let malformed := Fault.malformed (String.ofList s)
  match after? mark s with
  | none => .error malformed
  | some body =>
    match cut? mark body with
    | none => .error malformed
    | some (head, message) =>
      let (name, rest) := (cut? [' '] head).getD (head, [])
      match Level.read? (String.ofList name) with
      | none => .error (.unknownLevel (String.ofList name))
      | some level => do
        let pieces := (splitOn ',' rest).filter (!·.isEmpty)
        let p ← Properties.read malformed {} pieces
        p.toAnnotation level (readText message)

/-- Reads an annotation line. -/
def ofLine (s : String) : Except Fault Annotation := ofChars s.toList

end Steward.Annotation
