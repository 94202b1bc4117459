import Steward.Json.Basic
import Steward.Text.Cut

/-!
# Fixes

A fix puts a text in place of what stands between two byte offsets of a source. Fixes are applied
from the left; one that overlaps the fix applied before it, or that cuts a character or reaches
beyond the source, is skipped.

* `Fix.applyAll`: the source with the fixes applied.
-/

namespace Steward.Lint

open Text

/-- A text to be put in place of what stands between two byte offsets. -/
structure Fix where
  start : Nat
  finish : Nat
  text : String
deriving DecidableEq, Repr

instance : Json.Encode Fix :=
  ⟨fun f => .object [Json.field "range" (f.start, f.finish), Json.field "text" f.text]⟩

/-- A source while fixes are applied to it. -/
structure Fix.Progress where
  /-- What was written so far. -/
  written : List Char
  /-- The offset up to which the source was read, and the rest of the source. -/
  cursor : Nat
  rest : List Char
  applied : Nat := 0
  skipped : Nat := 0
deriving DecidableEq, Repr

/-- A source after fixes were applied to it. -/
structure Fix.Outcome where
  output : String
  applied : Nat
  skipped : Nat
deriving DecidableEq, Repr

instance : Json.Encode Fix.Outcome :=
  ⟨fun o => .object [Json.field "output" o.output, Json.field "applied" o.applied,
    Json.field "skipped" o.skipped]⟩

namespace Fix

/-- The source up to a fix and behind it, where it can be applied. -/
def place? (f : Fix) (cursor : Nat) (rest : List Char) : Option (List Char × List Char) := do
  if f.start < cursor ∨ f.finish < f.start then none
  let (kept, rest) ← cutAt? units8 (f.start - cursor) rest
  let (_, rest) ← cutAt? units8 (f.finish - f.start) rest
  return (kept, rest)

/-- Applies a fix, or skips it. -/
def Progress.add (p : Progress) (f : Fix) : Progress :=
  match f.place? p.cursor p.rest with
  | some (kept, rest) =>
    { p with
      written := p.written ++ kept ++ f.text.toList, cursor := f.finish, rest
      applied := p.applied + 1 }
  | none => { p with skipped := p.skipped + 1 }

/-- A source before any fix. -/
def Progress.ofSource (source : List Char) : Progress := ⟨[], 0, source, 0, 0⟩

/-- Fixes in the order of their starts; those of one start keep their order. -/
def inOrder (fixes : List Fix) : List Fix := fixes.mergeSort fun a b => a.start ≤ b.start

/-- The source with the fixes applied. -/
def applyAll (source : String) (fixes : List Fix) : Outcome :=
  let p := (inOrder fixes).foldl Progress.add (Progress.ofSource source.toList)
  ⟨String.ofList (p.written ++ p.rest), p.applied, p.skipped⟩

end Fix

end Steward.Lint
