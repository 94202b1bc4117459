import Steward.Toml.Quoted
import Steward.Toml.Scalar
import Steward.Toml.Table

/-!
# Reading TOML text

A document is a list of lines: a header opens a table, and each key below it sets a field there.

* `read`: the table that a text stands for.
-/

namespace Steward.Toml

/-! ## Blanks and keys -/

/-- The text after white space within the line. -/
def skipSpaces (s : List Char) : List Char := s.dropWhile isSpace

/-- The text after a comment, which ends before the line break. -/
def skipComment (s : List Char) : List Char :=
  match s with
  | '#' :: rest => rest.dropWhile isPlain
  | _ => s

/-- The text after white space, comments and line breaks. -/
def skipBlank : (fuel : Nat) → List Char → List Char
  | 0, s => s
  | fuel + 1, s =>
    let s := skipComment (skipSpaces s)
    match afterBreak? s with
    | some rest => skipBlank fuel rest
    | none => s

/-- Whether a key may hold a character without quotes. -/
def isBare (c : Char) : Bool := c.isAlphanum || c = '_' || c = '-'

/-- One name of a key. -/
def readName (s : List Char) : Option (String × List Char) :=
  match s with
  | '"' :: _ | '\'' :: _ => readQuotedLine s
  | _ =>
    let name := s.takeWhile isBare
    if name.isEmpty then none else some (String.ofList name, s.drop name.length)

/-- A key: names joined by dots, with white space around each. -/
def readKey : (fuel : Nat) → List Char → Option (List String × List Char)
  | 0, _ => none
  | fuel + 1, s => do
    let (name, rest) ← readName (skipSpaces s)
    match skipSpaces rest with
    | '.' :: rest =>
      let (names, rest) ← readKey fuel rest
      return (name :: names, rest)
    | rest => return ([name], rest)

/-! ## Values -/

/-- Whether a character belongs to a number, a date or a word. -/
def isWordChar (c : Char) : Bool :=
  c.isAlphanum || c = '_' || c = '+' || c = '-' || c = '.' || c = ':'

/-- The value that is not a text, a list or a table. A date may be joined to a time by a blank. -/
def readScalarValue (s : List Char) : Option (Toml × List Char) :=
  let word := s.takeWhile isWordChar
  let rest := s.drop word.length
  let (word, rest) := match readDate word, rest with
    | some (_, []), ' ' :: d :: more =>
      if d.isDigit then
        let time := (d :: more).takeWhile isWordChar
        (word ++ ' ' :: time, (d :: more).drop time.length)
      else (word, rest)
    | _, _ => (word, rest)
  match word with
  | ['t', 'r', 'u', 'e'] => some (bool true, rest)
  | ['f', 'a', 'l', 's', 'e'] => some (bool false, rest)
  | _ => ((ofMoment? word).orElse fun _ => ofNumber? word).map (·, rest)

/-- The path to the last name of a key, and that name. -/
def splitKey (names : List String) : Option (List String × String) :=
  names.getLast?.map fun last => (names.dropLast, last)

mutual

/-- A value. -/
def readValue : (fuel : Nat) → List Char → Option (Toml × List Char)
  | 0, _ => none
  | fuel + 1, s =>
    match s with
    | '"' :: _ | '\'' :: _ => (readQuoted s).map fun (t, rest) => (text t, rest)
    | '[' :: rest => (readItems fuel rest).map fun (items, rest) => (list items, rest)
    | '{' :: rest =>
      match skipSpaces rest with
      | '}' :: rest => some (empty, rest)
      | rest => (readPairs fuel [] rest).map fun (nodes, rest) => (nodes.finish, rest)
    | _ => readScalarValue s

/-- The items of a list up to its end. -/
def readItems : (fuel : Nat) → List Char → Option (List Toml × List Char)
  | 0, _ => none
  | fuel + 1, s =>
    match skipBlank s.length s with
    | ']' :: rest => some ([], rest)
    | s => do
      let (v, rest) ← readValue fuel s
      match skipBlank rest.length rest with
      | ']' :: rest => return ([v], rest)
      | ',' :: rest =>
        let (items, rest) ← readItems fuel rest
        return (v :: items, rest)
      | _ => none

/-- The fields of a table in braces up to its end, where `nodes` are those before. -/
def readPairs : (fuel : Nat) → (nodes : Nodes) → List Char → Option (Nodes × List Char)
  | 0, _, _ => none
  | fuel + 1, nodes, s => do
    let (key, rest) ← readKey s.length s
    let (path, name) ← splitKey key
    match rest with
    | '=' :: rest =>
      let (v, rest) ← readValue fuel (skipSpaces rest)
      let nodes ← nodes.set path name v
      match skipSpaces rest with
      | '}' :: rest => return (nodes, rest)
      | ',' :: rest => readPairs fuel nodes rest
      | _ => none
    | _ => none

end

/-! ## Documents -/

/-- A line of a document. -/
inductive Line where
  | blank
  | field (key : List String) (v : Toml)
  | header (key : List String)
  /-- A header in double brackets. -/
  | next (key : List String)

/-- The line at the start, up to a comment or its end. -/
def readStatement (s : List Char) : Option (Line × List Char) :=
  match s with
  | [] | '\n' :: _ | '\r' :: _ | '#' :: _ => some (.blank, s)
  | '[' :: '[' :: rest => do
    match ← readKey rest.length rest with
    | (key, ']' :: ']' :: rest) => return (.next key, rest)
    | _ => none
  | '[' :: rest => do
    match ← readKey rest.length rest with
    | (key, ']' :: rest) => return (.header key, rest)
    | _ => none
  | _ => do
    match ← readKey s.length s with
    | (key, '=' :: rest) =>
      let (v, rest) ← readValue (rest.length + 1) (skipSpaces rest)
      return (.field key v, rest)
    | _ => none

/-- A document so far: its fields, and the table that the last header opened. -/
structure Draft where
  nodes : Nodes := []
  current : List String := []

/-- The document with one more line. -/
def Draft.add (d : Draft) : Line → Option Draft
  | .blank => some d
  | .field key v => do
    let (path, name) ← splitKey key
    let nodes ← d.nodes.change false (fun _ fields => fields.set path name v) d.current .header
    return { d with nodes }
  | .header key => do
    let (path, name) ← splitKey key
    return ⟨← d.nodes.openTable path name, key⟩
  | .next key => do
    let (path, name) ← splitKey key
    return ⟨← d.nodes.openNext path name, key⟩

/-- The document with the lines of a text. -/
def Draft.addLines : (fuel : Nat) → Draft → List Char → Option Draft
  | 0, _, _ => none
  | fuel + 1, d, s => do
    let (line, rest) ← readStatement (skipSpaces s)
    let d ← d.add line
    match skipComment (skipSpaces rest) with
    | [] => return d
    | rest => addLines fuel d (← afterBreak? rest)

/-- The table that a text stands for. -/
def read (s : String) : Option Toml :=
  let chars := s.toList
  let chars := if chars.head? = some '\uFEFF' then chars.tail else chars
  (Draft.addLines (chars.length + 1) {} chars).map (·.nodes.finish)

end Steward.Toml
