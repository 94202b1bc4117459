import Steward.Annotation.Basic
import Steward.Text.Lines

/-!
# Reading output line by line

A reader of a tool's output goes through it line by line. After each line it may give annotations
that are now complete; at the end of the output it gives what it still holds.

* `Reader.run_append`: output in two parts is read one part after the other.
* `Reader.run_eq_finish_append`: a line that ends whatever the reader holds makes it start afresh.
-/

namespace Steward.Output

/-- A reader of output whose state between two lines is a `σ`. -/
structure Reader (σ : Type) where
  start : σ
  step : σ → List Char → List Annotation × σ
  finish : σ → List Annotation

namespace Reader

variable {σ : Type}

/-- The annotations of the lines, from a state on to the end of the output. -/
def run (r : Reader σ) : σ → List (List Char) → List Annotation
  | s, [] => r.finish s
  | s, line :: rest => (r.step s line).1 ++ run r (r.step s line).2 rest

/-- The annotations completed within the lines, and the state after them. -/
def pass (r : Reader σ) : σ → List (List Char) → List Annotation × σ
  | s, [] => ([], s)
  | s, line :: rest =>
    let (later, s') := pass r (r.step s line).2 rest
    ((r.step s line).1 ++ later, s')

/-- The annotations of a tool's output. -/
def readChars (r : Reader σ) (output : List Char) : List Annotation :=
  r.run r.start (Text.lines output)

/-- The annotations of a tool's output. -/
def read (r : Reader σ) (output : String) : List Annotation := r.readChars output.toList

theorem run_append (r : Reader σ) (s : σ) (a b : List (List Char)) :
    r.run s (a ++ b) = (r.pass s a).1 ++ r.run (r.pass s a).2 b := by
  induction a generalizing s with
  | nil => rfl
  | cons line rest ih => simp [run, pass, ih]

theorem run_eq_pass (r : Reader σ) (s : σ) (lines : List (List Char)) :
    r.run s lines = (r.pass s lines).1 ++ r.finish (r.pass s lines).2 := by
  simpa [run] using r.run_append s lines []

/-- If a line gives, from any state, what the reader holds and then what it gives at the start, and
leads to the same state, then the output from this line on is read on its own. -/
theorem run_eq_finish_append (r : Reader σ) (line : List Char) (rest : List (List Char))
    (h : ∀ s, r.step s line = (r.finish s ++ (r.step r.start line).1, (r.step r.start line).2))
    (s : σ) : r.run s (line :: rest) = r.finish s ++ r.run r.start (line :: rest) := by
  simp [run, h s]

end Reader

end Steward.Output
