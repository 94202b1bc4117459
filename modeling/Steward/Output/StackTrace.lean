import Steward.Output.Place
import Steward.Output.Reader

/-!
# Stack traces

A trace is a line that names the error, such as `TypeError: x is undefined`, and frame lines such as
`    at run (src/a.ts:3:5)` after it. The error is pinned to the first frame that belongs to the
program itself; a trace without one gives nothing.
-/

namespace Steward.Output.StackTrace

open Text

/-! ## Lines -/

/-- Whether a character may start an identifier. -/
def isNameStart (c : Char) : Bool := c.isAlpha || c = '_' || c = '$'

/-- Whether a character may stand inside an identifier. -/
def isNamePart (c : Char) : Bool := isWord c || c = '$'

/-- Whether a text is empty or an identifier. -/
def isName : List Char → Bool
  | [] => true
  | c :: rest => isNameStart c && rest.all isNamePart

/-- Whether a text names an error: it ends in `Error` or `Exception`, with nothing or an identifier
before it. -/
def isErrorName (s : List Char) : Bool :=
  (before? "Error".toList s).any isName || (before? "Exception".toList s).any isName

/-- Reads a line that names an error: the name and the message. -/
def header? (line : List Char) : Option (List Char × List Char) := do
  let s := trimStart line
  let s := (after? "Uncaught ".toList s).getD s
  let (name, message) ← cut? [':', ' '] s
  if isErrorName name then return (name, message) else none

/-- What stands behind `at` in a frame line, without blank characters at its end. -/
def frame? (line : List Char) : Option (List Char) := do
  let s := trimStart line
  if s.length = line.length then none
  else (after? ['a', 't', ' '] s).map trimEnd

/-- The word that marks a file name as an address. -/
def scheme : List Char := ['f', 'i', 'l', 'e', ':', '/', '/']

/-- A file name without the words `file://` at its start. -/
def dropScheme (file : List Char) : List Char :=
  match _h : after? scheme file with
  | some rest => dropScheme rest
  | none => file
termination_by file.length
decreasing_by
  simp only [after?_eq_some_iff.1 _h, scheme, List.length_append, List.length_cons]
  omega

/-- The place of a frame `fn (file:line:col)`. -/
def callPlace? (body : List Char) : Option Place := do
  let body ← before? [')'] body
  let (file, line, column) ← cutPlace? body
  let (_, file) ← cut? [' ', '('] file
  if file.isEmpty then none else return Place.of (dropScheme file) line column

/-- The place of a frame `file:line:col`. -/
def barePlace? (body : List Char) : Option Place := do
  let (file, line, column) ← cutPlace? body
  match file with
  | [] => none
  | c :: _ =>
    if isBlank c ∨ c = '(' then none
    else return Place.of (dropScheme file) line column

/-- The place of a frame line. -/
def place? (line : List Char) : Option Place := do
  let body ← frame? line
  (callPlace? body).or (barePlace? body)

/-- Whether a file belongs to a dependency or to the runtime. -/
def isInternal (file : String) : Bool :=
  contains "node_modules".toList file.toList || startsWith "node:".toList file.toList ||
    startsWith "internal/".toList file.toList

/-! ## Traces -/

/-- An error and the first frame of its own, once it was met. -/
structure Trace where
  name : String
  message : String
  place : Option Place
deriving DecidableEq

/-- The annotation of a trace that has a place. -/
def Trace.annotation? (t : Trace) : Option Annotation :=
  t.place.map fun p =>
    { level := .error, file := p.file, line := p.line, column := p.column, title := some t.name
      message := t.message }

/-- The trace after a frame line. -/
def Trace.addFrame (t : Trace) (line : List Char) : Trace :=
  { t with place := t.place.or ((place? line).filter fun p => !isInternal p.file) }

/-- The annotation that a trace gives, if any. -/
def done (t : Option Trace) : List Annotation := (t.bind Trace.annotation?).toList

/-- The reader of stack traces. -/
def reader : Reader (Option Trace) where
  start := none
  step last line :=
    match header? line with
    | some (name, message) =>
      (done last, some ⟨String.ofList name, String.ofList message, none⟩)
    | none => ([], last.map (·.addFrame line))
  finish := done

end Steward.Output.StackTrace
