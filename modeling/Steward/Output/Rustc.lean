import Steward.Output.Place
import Steward.Output.Reader

/-!
# Diagnostics of the Rust compiler

A diagnostic is a header such as `error[E0308]: mismatched types` and the lines after it up to the
next header or summary; it is pinned to the first line among them that starts with an arrow. Its
title is the code of the header or else the lint that a note names.
-/

namespace Steward.Output.Rustc

open Annotation (Level)
open Text

/-! ## Lines -/

/-- What a header says. -/
structure Header where
  level : Level
  code : Option (List Char)
  message : List Char
deriving DecidableEq

/-- The level at the start of a line, and the rest. -/
def level? (line : List Char) : Option (Level × List Char) :=
  ((after? "error".toList line).map (.error, ·)).or
    ((after? "warning".toList line).map (.warning, ·))

/-- Reads the code in brackets at the start of a text, if there is one; brackets that hold no code
are refused. -/
def code? (s : List Char) : Option (Option (List Char) × List Char) :=
  match s with
  | '[' :: rest =>
    match cut? [']'] rest with
    | some (code, rest) => if code.isEmpty then none else some (some code, rest)
    | none => none
  | _ => some (none, s)

/-- Reads a header. -/
def header? (line : List Char) : Option Header := do
  let (level, s) ← level? line
  let (code, s) ← code? s
  let message ← after? [':', ' '] s
  if message.isEmpty then none else return ⟨level, code, message⟩

/-- Whether a text goes on with `generated`, a number and `warning`. -/
def isCount (s : List Char) : Bool :=
  match after? ") generated ".toList s with
  | none => false
  | some s =>
    !(s.takeWhile isDecimal).isEmpty && startsWith " warning".toList (s.dropWhile isDecimal)

/-- Whether a count stands somewhere in a text. -/
def hasCount : List Char → Bool
  | [] => false
  | c :: rest => isCount (c :: rest) || hasCount rest

/-- Whether a text says how many warnings a crate has: its name between backticks, its kind in
parentheses and a count. -/
def isCrateSummary (s : List Char) : Bool :=
  match s with
  | '`' :: rest =>
    match cut? ['`'] rest with
    | some (crate, rest) =>
      !crate.isEmpty &&
        match after? [' ', '('] rest with
        | some (_ :: rest) => hasCount rest
        | _ => false
    | none => false
  | _ => false

/-- Whether a line sums up what came before. -/
def isSummary (line : List Char) : Bool :=
  match (level? line).bind fun (_, s) => after? [':', ' '] s with
  | none => false
  | some s =>
    isCrateSummary s || startsWith "aborting due to".toList s ||
      startsWith "could not compile".toList s || startsWith "build failed".toList s

/-- The place of an arrow line: `  --> src/a.rs:3:5`. -/
def place? (line : List Char) : Option Place := do
  let s ← after? "--> ".toList (trimStart line)
  let (file, line, column) ← cutPlace? (trimEnd s)
  return Place.of file line column

/-- The lint of an attribute `#[warn(lint)]`, `#[deny(lint)]` or `#[forbid(lint)]` at the start of a
text. -/
def lintAt? (s : List Char) : Option (List Char) := do
  let s ← after? ['#', '['] s
  let s ← ((after? "warn".toList s).or (after? "deny".toList s)).or (after? "forbid".toList s)
  let s ← after? ['('] s
  let isPart := fun c => isWord c || c = ':'
  if (s.takeWhile isPart).isEmpty then none
  else (after? [')', ']'] (s.dropWhile isPart)).map fun _ => s.takeWhile isPart

/-- The lint of the first attribute in a line. -/
def lint? : List Char → Option (List Char)
  | [] => none
  | c :: rest => (lintAt? (c :: rest)).or (lint? rest)

/-! ## Blocks -/

/-- A header and what was found under it. -/
structure Block where
  header : Header
  title : Option (List Char)
  place : Option Place
deriving DecidableEq

/-- The block of a header alone. -/
def Block.ofHeader (h : Header) : Block := ⟨h, h.code, none⟩

/-- The annotation of a block that has a place. -/
def Block.annotation? (b : Block) : Option Annotation :=
  b.place.map fun p =>
    { level := b.header.level, file := p.file, line := p.line, column := p.column
      title := b.title.map String.ofList, message := String.ofList b.header.message }

/-- The block with one line more: its place where it had none and the line has one, else its title
where it had none. -/
def Block.add (b : Block) (line : List Char) : Block :=
  match b.place, place? line with
  | none, some p => { b with place := some p }
  | _, _ => { b with title := b.title.or (lint? line) }

/-- The annotation that a block gives, if any. -/
def done (b : Option Block) : List Annotation := (b.bind Block.annotation?).toList

/-- The reader of the compiler's output. -/
def reader : Reader (Option Block) where
  start := none
  step last line :=
    if isSummary line then (done last, none)
    else
      match header? line with
      | some h => (done last, some (Block.ofHeader h))
      | none => ([], last.map (·.add line))
  finish := done

end Steward.Output.Rustc
