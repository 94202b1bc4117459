import Steward.Text.Search

/-!
# Paths

Slash-separated paths. Repeated slashes and segments `.` stand for nothing, except that a path may
start at the root or with one segment `.` of its own; a segment `..` is a segment like any other.

* `join`: a path that starts at the root replaces what it is joined to.
* `relativeTo`: the rest of a path under a directory keeps its own spelling.
-/

namespace Steward.Path

open Text

/-- Whether a segment stands for a name. -/
def isNamed (segment : List Char) : Bool := segment ≠ [] && segment ≠ ['.']

/-- Where a path starts. -/
inductive Start where
  | root
  | here
  | named
deriving DecidableEq, Repr

/-- Where a path starts, and its segments after that. -/
def parts (path : List Char) : Start × List (List Char) :=
  match path with
  | '/' :: rest => (.root, splitOn '/' rest)
  | _ =>
    match splitOn '/' path with
    | ['.'] :: rest => (.here, rest)
    | segments => (.named, segments)

/-- The segments without those at the end that stand for nothing. -/
def trimEnd (segments : List (List Char)) : List (List Char) :=
  (segments.reverse.dropWhile (!isNamed ·)).reverse

/-- The text of segments. -/
def spell (segments : List (List Char)) : List Char := List.intercalate ['/'] segments

/-- What is left of segments after the named ones of a directory. -/
def strip : (directory : List (List Char)) → List (List Char) → Option (List (List Char))
  | [], segments => some segments
  | d :: directory, segments =>
    match segments.dropWhile (!isNamed ·) with
    | [] => none
    | s :: rest => if s = d then strip directory rest else none

/-- The path without what stands for nothing at its end. -/
def trimmed (path : List Char) : List Char :=
  match parts path with
  | (.root, rest) => '/' :: spell (trimEnd rest)
  | (.here, rest) => spell (['.'] :: trimEnd rest)
  | (.named, segments) => spell (trimEnd segments)

/-- The rest of a path that lies under a directory. -/
def under? (directory path : List Char) : Option (List Char) :=
  if directory = [] then some (trimmed path)
  else
    let (start, segments) := parts directory
    let (start', segments') := parts path
    if start = start' then
      (strip (segments.filter isNamed) segments').map fun rest =>
        spell (trimEnd (rest.dropWhile (!isNamed ·)))
    else none

/-- The path relative to a directory that it lies under; any other path stays as it is. -/
def relativeTo (directory : Option String) (path : String) : String :=
  match directory.bind fun d => under? d.toList path.toList with
  | some rest => String.ofList rest
  | none => path

/-- The path of `path` seen from a directory. -/
def join (directory path : String) : String :=
  if startsWith ['/'] path.toList then path
  else if directory.isEmpty || endsWith ['/'] directory.toList then directory ++ path
  else directory ++ "/" ++ path

end Steward.Path
