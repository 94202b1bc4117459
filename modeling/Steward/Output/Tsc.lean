import Steward.Output.Place
import Steward.Output.Reader

/-!
# Diagnostics of the TypeScript compiler

A diagnostic is a line such as `src/a.ts(3,5): error TS2322: Type …`; indented lines after it go on
with its message. The file name ends at the first place where the rest of the line has this form.
-/

namespace Steward.Output.Tsc

open Annotation (Level)
open Text

/-- What stands behind the file name of a diagnostic. -/
structure Tail where
  line : List Char
  column : List Char
  level : Level
  code : List Char
  message : List Char
deriving DecidableEq

/-- The written levels, each with the space behind it. -/
def levels : List (List Char × Level) :=
  [("error ".toList, .error), ("warning ".toList, .warning), ("message ".toList, .notice)]

/-- The nonempty run of decimal digits at the start of a text, and the rest. -/
def digits? (s : List Char) : Option (List Char × List Char) :=
  if (s.takeWhile isDecimal).isEmpty then none
  else some (s.takeWhile isDecimal, s.dropWhile isDecimal)

/-- The level at the start of a text, and the rest behind the space after it. -/
def level? (s : List Char) : Option (Level × List Char) :=
  levels.findSome? fun (name, level) => (after? name s).map (level, ·)

/-- Reads what stands behind a file name: `(3,5): error TS2322: message`. -/
def tail? (s : List Char) : Option Tail := do
  let s ← after? ['('] s
  let (line, s) ← digits? s
  let s ← after? [','] s
  let (column, s) ← digits? s
  let s ← after? [')', ':', ' '] s
  let (level, s) ← level? s
  let s ← after? ['T', 'S'] s
  let (code, s) ← digits? s
  let message ← after? [':', ' '] s
  return ⟨line, column, level, 'T' :: 'S' :: code, message⟩

/-- The text before the first tail, and the tail. -/
def split? : List Char → Option (List Char × Tail)
  | [] => none
  | c :: rest =>
    match tail? (c :: rest) with
    | some t => some ([], t)
    | none => (split? rest).map fun (file, t) => (c :: file, t)

/-- Reads a diagnostic line: a file name that does not start with a blank character, and a tail. -/
def diagnostic? : List Char → Option (List Char × Tail)
  | [] => none
  | c :: rest => if isBlank c then none else (split? rest).map fun (file, t) => (c :: file, t)

/-- The annotation of a diagnostic line. -/
def report (file : List Char) (t : Tail) : Annotation :=
  { level := t.level, file := String.ofList (trim file), line := position t.line
    column := position t.column, title := some (String.ofList t.code)
    message := String.ofList t.message }

/-- Whether a line goes on with the message before it. -/
def continues (line : List Char) : Bool :=
  (line.head? = some ' ' || line.head? = some '\t') && !line.all isBlank

/-- The annotation with a line more in its message. -/
def extend (a : Annotation) (line : List Char) : Annotation :=
  { a with message := a.message ++ "\n" ++ String.ofList (trim line) }

/-- The reader of the compiler's output; it holds the last diagnostic. -/
def reader : Reader (Option Annotation) where
  start := none
  step last line :=
    match diagnostic? line with
    | some (file, t) => (last.toList, some (report file t))
    | none => ([], if continues line then last.map (extend · line) else last)
  finish last := last.toList

end Steward.Output.Tsc
