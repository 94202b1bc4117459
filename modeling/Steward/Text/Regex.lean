/-!
# Regular expressions

The part of the syntax of regular expressions that patterns of paths are written in: characters,
`.` and `[^c]`, a star behind one of these, groups `(?:…)`, question marks, and the anchors of the
start and the end of the text. Other expressions are not read.

* `Regex.ofText?`: the expression of a written form.
* `Regex.isMatch`: whether an expression matches somewhere in a text.
* `Regex.literal`: how a character is written that stands for itself.
-/

namespace Steward.Text

/-- A class of characters. -/
inductive Regex.Class where
  /-- A character that stands for itself. -/
  | only (c : Char)
  /-- `.`, every character but a line feed. -/
  | any
  /-- `[^c]` -/
  | except (c : Char)
deriving DecidableEq, Repr

/-- A regular expression. -/
inductive Regex where
  | nothing
  /-- `^` -/
  | start
  /-- `$` -/
  | finish
  | one (k : Regex.Class)
  | many (k : Regex.Class)
  | optional (r : Regex)
  | both (first second : Regex)
deriving DecidableEq, Repr

namespace Regex

/-! ## Reading -/

/-- The characters that are written with a backslash where they stand for themselves. -/
def specials : List Char :=
  ['\\', '.', '+', '*', '?', '(', ')', '|', '[', ']', '{', '}', '^', '$', '#', '&', '-', '~']

/-- The characters that start something else where no backslash stands before them. -/
def openers : List Char := ['\\', '(', '[', '{', '|', '+']

/-- The written form of a character that stands for itself. -/
def literal (c : Char) : List Char := if specials.contains c then ['\\', c] else [c]

/-- The expression of parts one after the other, given last part first. -/
def sequence : List Regex → Regex
  | [] => nothing
  | r :: before => both (sequence before) r

/-- Reads the rest of an expression, given the parts read so far in the innermost group that is
open, and in the groups around it, last part first. -/
def read (inner : List Regex) (outer : List (List Regex)) : List Char → Option Regex
  | [] => if outer.isEmpty then some (sequence inner) else none
  | '(' :: '?' :: ':' :: s => read [] (inner :: outer) s
  | ')' :: s =>
    match outer with
    | parts :: outer => read (sequence inner :: parts) outer s
    | [] => none
  | '*' :: s =>
    match inner with
    | one k :: before => read (many k :: before) outer s
    | _ => none
  | '?' :: s =>
    match inner with
    | r :: before => read (optional r :: before) outer s
    | [] => none
  | '.' :: s => read (one .any :: inner) outer s
  | '^' :: s => read (start :: inner) outer s
  | '$' :: s => read (finish :: inner) outer s
  | '[' :: '^' :: c :: ']' :: s =>
    if specials.contains c then none else read (one (.except c) :: inner) outer s
  | '\\' :: c :: s =>
    if specials.contains c then read (one (.only c) :: inner) outer s else none
  | c :: s => if openers.contains c then none else read (one (.only c) :: inner) outer s

/-- The expression of a written form. -/
def ofText? (s : List Char) : Option Regex := read [] [] s

/-! ## Matching -/

/-- Whether a character belongs to a class. -/
def Class.has : Class → Char → Bool
  | only d, c => c = d
  | any, c => c ≠ '\n'
  | except d, c => c ≠ d

/-- What may be left of a text after a run of characters of a class, least first. -/
def Class.afterRun (k : Class) : List Char → List (List Char)
  | [] => [[]]
  | c :: s => if k.has c then k.afterRun s ++ [c :: s] else [c :: s]

/-- What may be left of `s` after an expression, where `s` is the end of a text of `length`
characters. -/
def after (length : Nat) : Regex → (s : List Char) → List (List Char)
  | nothing, s => [s]
  | start, s => if s.length = length then [s] else []
  | finish, s => if s.isEmpty then [s] else []
  | one _, [] => []
  | one k, c :: s => if k.has c then [s] else []
  | many k, s => k.afterRun s
  | optional r, s => s :: r.after length s
  | both first second, s => ((first.after length s).flatMap (second.after length ·)).eraseDups

/-- Whether an expression matches from some place of a text on. -/
def isMatch (r : Regex) (text : List Char) : Bool :=
  (List.range (text.length + 1)).any fun n => !(r.after text.length (text.drop n)).isEmpty

end Regex

end Steward.Text
