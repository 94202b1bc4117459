import Steward.Shell.Pattern
import Steward.Shell.State
import Steward.Text.Blank
import Steward.Text.Search

/-!
# Words

What the words of a script become: values are split at blanks, and patterns turn into the names that
match them. Each part of a word keeps whether it was quoted.
-/

namespace Steward.Shell

open Text

/-- A word in parts, each of which is marked if it was quoted. -/
abbrev Marked := List (String × Bool)

namespace Marked

/-- The text of a word. -/
def text (w : Marked) : String := String.join (w.map (·.1))

/-- The characters of a word, each of which is marked if it was quoted. -/
def chars (w : Marked) : List (Char × Bool) :=
  w.flatMap fun (s, quoted) => s.toList.map (·, quoted)

/-- Whether a part that was not quoted may stand for other text. -/
def mayVary (w : Marked) : Bool :=
  w.any fun (s, quoted) => !quoted && s.toList.any fun c => c = '*' || c = '?' || c = '['

/-- The names in a folder that a word matches, in order; the word itself where there are none. -/
def names (w : Marked) (s : State) : List String :=
  if !w.mayVary then [w.text]
  else
    let chars := w.chars
    let folder := (chars.reverse.dropWhile fun (c, _) => c ≠ '/').reverse
    let pattern := Pattern.ofWord (chars.drop folder.length)
    let path := String.ofList (folder.map (·.1))
    let isHidden := pattern.head? = some (.exact '.')
    let found := (s.machine.disk.names (Place.of s.folder path)).filter fun name =>
      name.startsWith "." = isHidden && pattern.accepts name.toList
    if found.isEmpty || !pattern.isOpen then [w.text]
    else (found.mergeSort (· ≤ ·)).map (path ++ ·)

end Marked

/-- Words under construction: those that are finished, last one first, and the parts of the one that
is not, last one first. -/
structure Splitting where
  finished : List Marked := []
  current : Option Marked := none

namespace Splitting

/-- Adds a text to the current word, or begins one. -/
def add (w : Splitting) (quoted : Bool) (s : String) : Splitting :=
  { w with current := some ((s, quoted) :: w.current.getD []) }

/-- Finishes the current word, if there is one. -/
def close (w : Splitting) : Splitting :=
  ⟨(w.current.map List.reverse).toList ++ w.finished, none⟩

/-- Adds a text that blanks split into words. -/
def addSplit (w : Splitting) (s : String) : Splitting :=
  s.toList.foldl (fun w c => if isSplit c then w.close else w.add false c.toString) w

/-- Adds texts, each of which but the first begins a word. -/
def addEach (w : Splitting) : List String → Splitting
  | [] => w
  | [s] => w.add true s
  | s :: rest => (w.add true s).close.addEach rest

/-- The words, in order. -/
def words (w : Splitting) : List Marked := w.close.finished.reverse

end Splitting

/-- A text without the line breaks at its end. -/
def chomp (s : String) : String := String.ofList (trimEndBy (· = '\n') s.toList)

/-- Whether a part of a word is what a script prints. -/
def Piece.isOutput : Piece → Bool
  | .output .. => true
  | _ => false

/-- The value of a variable without its start or its end, which a pattern matches. -/
def stripped (use : Use) (pattern : Pattern) (s : String) : String :=
  let chars := s.toList
  let cuts := List.range (chars.length + 1)
  let found := match use with
    | .withoutStart longest =>
      let ends := cuts.filter fun n => pattern.accepts (chars.take n)
      (if longest then ends.getLast? else ends.head?).map chars.drop
    | .withoutEnd longest =>
      let starts := cuts.filter fun n => pattern.accepts (chars.drop n)
      (if longest then starts.head? else starts.getLast?).map chars.take
    | _ => none
  String.ofList (found.getD chars)

end Steward.Shell
