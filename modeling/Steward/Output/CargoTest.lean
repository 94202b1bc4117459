import Steward.Output.Place
import Steward.Output.Reader

/-!
# Panics of tests

A test that panics tells where, in one of two forms: the place first and the message on the lines
after it, or the message in quotes and the place behind it. A message in quotes may go over several
lines; one that is never closed has no place and is dropped. The title is the test whose section the
panic stands in, or else the name of the thread.
-/

namespace Steward.Output.CargoTest

open Text

/-! ## Lines -/

/-- The test of a section line `---- name stdout ----`. -/
def section? (line : List Char) : Option (List Char) := do
  let s ← after? "---- ".toList line
  let name ← before? " stdout ----".toList s
  if name.isEmpty || name.any isBlank then none else return name

/-- The thread of a panic line, and what stands behind `panicked at`. -/
def thread? (line : List Char) : Option (List Char × List Char) := do
  let s ← after? "thread '".toList line
  let (thread, s) ← cut? ['\''] s
  let s ← after? " panicked at ".toList s
  if thread.isEmpty then none else return (thread, s)

/-- Whether a text may be a file name in a panic. -/
def isFile (s : List Char) : Bool := s.all fun c => !isBlank c && c != '\''

/-- The thread and the place of a panic line that gives the place first. -/
def located? (line : List Char) : Option (List Char × Place) := do
  let (thread, s) ← thread? line
  let s ← before? [':'] s
  let (file, line, column) ← cutPlace? s
  if isFile file then return (thread, Place.of file line column) else none

/-- The thread of a panic line that gives the message first, and what stands behind the opening
quote. -/
def opened? (line : List Char) : Option (List Char × List Char) := do
  let (thread, s) ← thread? line
  let rest ← after? ['\''] s
  return (thread, rest)

/-- The message and the place of a quoted message that is closed at the end of the text. -/
def closed? (text : List Char) : Option (List Char × Place) := do
  let (s, line, column) ← cutPlace? text
  let r := s.reverse
  let message ← after? [' ', ',', '\''] (r.dropWhile (· != ' '))
  let file := (r.takeWhile (· != ' ')).reverse
  if isFile file && !file.isEmpty then return (message.reverse, Place.of file line column) else none

/-- Whether a line ends the message of a panic that gave its place first. -/
def endsMessage (line : List Char) : Bool :=
  line.all isBlank || startsWith "note:".toList line || startsWith "---- ".toList line ||
    startsWith "thread '".toList line || startsWith "stack backtrace:".toList line ||
    startsWith "failures:".toList line

/-- Whether a line cannot be part of a message in quotes. -/
def startsBlock (line : List Char) : Bool :=
  (section? line).isSome || startsWith "thread '".toList line || line = "failures:".toList ||
    startsWith "test result:".toList line

/-! ## Panics -/

/-- A panic whose text is not complete. -/
inductive Pending where
  /-- The message so far, without its opening quote. -/
  | opened (title : String) (text : List Char)
  /-- The place and the lines of the message so far. -/
  | located (title : String) (place : Place) (lines : List (List Char))
deriving DecidableEq

/-- The annotation of a panic. -/
def report (title : String) (place : Place) (message : List Char) : Annotation :=
  { level := .error, file := place.file, line := place.line, column := place.column
    title := some title, message := String.ofList message }

/-- The message of the lines after a place. -/
def messageOf (lines : List (List Char)) : List Char :=
  if lines.isEmpty then "panicked".toList else joinLines lines

/-- The annotation that a panic gives where the output ends. -/
def close : Option Pending → List Annotation
  | some (.located title place lines) => [report title place (messageOf lines)]
  | some (.opened _ _) | none => []

/-- The section and the panic that the reader is in. -/
structure State where
  test : Option String := none
  pending : Option Pending := none
deriving DecidableEq

/-- A message in quotes so far: complete, or still to be closed. -/
def addQuoted (s : State) (title : String) (text : List Char) : List Annotation × State :=
  match closed? text with
  | some (message, place) => ([report title place message], { s with pending := none })
  | none => ([], { s with pending := some (.opened title text) })

/-- Reads a line outside of any message. -/
def fresh (test : Option String) (line : List Char) : List Annotation × State :=
  match section? line with
  | some name => ([], { test := some (String.ofList name) })
  | none =>
    match located? line with
    | some (thread, place) =>
      ([], { test, pending := some (.located (test.getD (String.ofList thread)) place []) })
    | none =>
      match opened? line with
      | some (thread, text) => addQuoted { test } (test.getD (String.ofList thread)) text
      | none => ([], { test })

/-- Reads a line. -/
def step (s : State) (line : List Char) : List Annotation × State :=
  match s.pending with
  | none => fresh s.test line
  | some (.opened title text) =>
    if startsBlock line then fresh s.test line else addQuoted s title (text ++ '\n' :: line)
  | some (.located title place lines) =>
    if endsMessage line then
      let (later, s') := fresh s.test line
      (close s.pending ++ later, s')
    else ([], { s with pending := some (.located title place (lines ++ [line])) })

/-- The reader of the output of tests. -/
def reader : Reader State where
  start := {}
  step := step
  finish s := close s.pending

end Steward.Output.CargoTest
