/-!
# Patterns of words

A star stands for any text, a question mark for any character, and brackets for one of the
characters in them. A character that was quoted stands for itself.
-/

namespace Steward.Shell

/-- A part of a pattern. -/
inductive Pattern.Part where
  | exact (c : Char)
  /-- Any text. -/
  | any
  /-- Any character. -/
  | one
  /-- A character in one of the ranges, or in none of them if `isNegated`. -/
  | oneOf (isNegated : Bool) (ranges : List (Char × Char))
deriving DecidableEq, Repr

/-- A pattern of words. -/
abbrev Pattern := List Pattern.Part

namespace Pattern

/-- The ranges up to a closing bracket, which may come first to stand for itself, and the number of
characters up to the end of it. -/
def ranges? : (isFirst : Bool) → List Char → Option (List (Char × Char) × Nat)
  | _, [] => none
  | isFirst, a :: '-' :: b :: rest =>
    if a = ']' && !isFirst then some ([], 1)
    else if b = ']' then
      (ranges? false ('-' :: b :: rest)).map fun (ranges, n) => ((a, a) :: ranges, n + 1)
    else (ranges? false rest).map fun (ranges, n) => ((a, b) :: ranges, n + 3)
  | isFirst, a :: rest =>
    if a = ']' && !isFirst then some ([], 1)
    else (ranges? false rest).map fun (ranges, n) => ((a, a) :: ranges, n + 1)

/-- The part that the text behind an opening bracket means, and its length. -/
def bracket? : List Char → Option (Part × Nat)
  | '!' :: rest | '^' :: rest =>
    (ranges? true rest).map fun (ranges, n) => (.oneOf true ranges, n + 1)
  | s => (ranges? true s).map fun (ranges, n) => (.oneOf false ranges, n)

/-- The parts of a word, each of whose characters is marked if it was quoted; the first `skip` of
them are left out. -/
def partsFrom : (skip : Nat) → List (Char × Bool) → Pattern
  | _, [] => []
  | skip + 1, _ :: rest => partsFrom skip rest
  | 0, (c, true) :: rest => .exact c :: partsFrom 0 rest
  | 0, (c, false) :: rest =>
    if c = '*' then .any :: partsFrom 0 rest
    else if c = '?' then .one :: partsFrom 0 rest
    else if c = '[' then
      match bracket? (rest.map (·.1)) with
      | some (part, n) => part :: partsFrom n rest
      | none => .exact c :: partsFrom 0 rest
    else .exact c :: partsFrom 0 rest

/-- The pattern that a word is, each of whose characters is marked if it was quoted. -/
def ofWord (word : List (Char × Bool)) : Pattern := partsFrom 0 word

/-- Whether a pattern stands for more than its own text. -/
def isOpen (p : Pattern) : Bool := p.any fun part =>
  match part with
  | .exact _ => false
  | _ => true

/-- What may be left of a text after one part. -/
def Part.after : Part → List Char → List (List Char)
  | exact c, s =>
    match s with
    | d :: rest => if c = d then [rest] else []
    | [] => []
  | any, s => (List.range (s.length + 1)).map s.drop
  | one, s => s.tail?.toList
  | oneOf isNegated ranges, s =>
    match s with
    | d :: rest =>
      if (ranges.any fun (low, high) => low ≤ d && d ≤ high) ≠ isNegated then [rest] else []
    | [] => []

/-- What may be left of any of some texts after the parts. -/
def after (texts : List (List Char)) : Pattern → List (List Char)
  | [] => texts
  | part :: parts => after (texts.flatMap part.after).eraseDups parts

/-- Whether a text matches. -/
def accepts (p : Pattern) (s : List Char) : Bool := (after [s] p).any List.isEmpty

end Pattern

end Steward.Shell
