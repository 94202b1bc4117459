import Steward.Json.Reader
import Steward.Text.Search

/-!
# Quoted texts of TOML

Basic texts stand between quotes and know escapes; literal texts stand between apostrophes and are
taken as they are. Three delimiters open a text of several lines: a line break right after them does
not count, and up to two delimiters may stand right before the three that close it.
-/

namespace Steward.Toml

/-- The rest of a text after a line break. -/
def afterBreak? : List Char → Option (List Char)
  | '\n' :: rest => some rest
  | '\r' :: '\n' :: rest => some rest
  | _ => none

/-- The rest of a text after a line break, or the text where none starts it. -/
def skipBreak (s : List Char) : List Char := (afterBreak? s).getD s

/-- Whether a character separates words within a line. -/
def isSpace (c : Char) : Bool := c = ' ' || c = '\t'

/-- Whether a character may stand as it is, within a line. -/
def isPlain (c : Char) : Bool := c = '\t' || (c.toNat ≥ 0x20 && c.toNat ≠ 0x7F)

/-- The character that hexadecimal digits name; surrogates are none. -/
def scalar? (digits : List Char) : Option Char := do
  let ds ← digits.mapM Json.hexDigit?
  let n := ds.foldl (16 * · + ·) 0
  if n.isValidChar then some (Char.ofNat n) else none

/-- The character of exactly `count` hexadecimal digits. -/
def readScalar (count : Nat) (s : List Char) : Option (Char × List Char) :=
  if (s.take count).length = count then (scalar? (s.take count)).map (·, s.drop count) else none

/-- The character of an escape, after the backslash. -/
def readEscape : List Char → Option (Char × List Char)
  | 'b' :: rest => some ('\x08', rest)
  | 't' :: rest => some ('\t', rest)
  | 'n' :: rest => some ('\n', rest)
  | 'f' :: rest => some ('\x0c', rest)
  | 'r' :: rest => some ('\r', rest)
  | '"' :: rest => some ('"', rest)
  | '\\' :: rest => some ('\\', rest)
  | 'u' :: rest => readScalar 4 rest
  | 'U' :: rest => readScalar 8 rest
  | _ => none

/-- The rest after white space and line breaks, of which there has to be one behind the first run of
white space. -/
def skipFold (s : List Char) : Option (List Char) :=
  (afterBreak? (s.dropWhile isSpace)).map fun rest => go rest.length rest
where
  /-- The rest after white space and line breaks. -/
  go : (fuel : Nat) → List Char → List Char
    | 0, s => s
    | fuel + 1, s =>
      let s := s.dropWhile isSpace
      match afterBreak? s with
      | some rest => go fuel rest
      | none => s

/-- The text of one line up to its delimiter. -/
def readLine (delimiter : Char) :
    (fuel : Nat) → (sofar : List Char) → List Char → Option (String × List Char)
  | 0, _, _ => none
  | _ + 1, _, [] => none
  | fuel + 1, sofar, c :: rest =>
    if c = delimiter then some (String.ofList sofar.reverse, rest)
    else if c = '\\' && delimiter = '"' then do
      let (e, rest) ← readEscape rest
      readLine delimiter fuel (e :: sofar) rest
    else if isPlain c then readLine delimiter fuel (c :: sofar) rest
    else none

/-- The text of several lines up to its delimiters. -/
def readLines (delimiter : Char) :
    (fuel : Nat) → (sofar : List Char) → List Char → Option (String × List Char)
  | 0, _, _ => none
  | _ + 1, _, [] => none
  | fuel + 1, sofar, c :: rest =>
    if c = delimiter then
      let run := (c :: rest).takeWhile (· = delimiter)
      let after := (c :: rest).dropWhile (· = delimiter)
      if run.length < 3 then readLines delimiter fuel (run ++ sofar) after
      else if run.length ≤ 5 then
        some (String.ofList (List.replicate (run.length - 3) delimiter ++ sofar).reverse, after)
      else none
    else if c = '\\' && delimiter = '"' then
      match skipFold rest with
      | some rest => readLines delimiter fuel sofar rest
      | none => do
        let (e, rest) ← readEscape rest
        readLines delimiter fuel (e :: sofar) rest
    else
      match afterBreak? (c :: rest) with
      | some rest => readLines delimiter fuel ('\n' :: sofar) rest
      | none => if isPlain c then readLines delimiter fuel (c :: sofar) rest else none

/-- A quoted text of one line, its delimiter first. -/
def readQuotedLine : List Char → Option (String × List Char)
  | '"' :: rest => readLine '"' rest.length [] rest
  | '\'' :: rest => readLine '\'' rest.length [] rest
  | _ => none

/-- A quoted text, its delimiters first. -/
def readQuoted (s : List Char) : Option (String × List Char) :=
  match s with
  | '"' :: '"' :: '"' :: rest => readLines '"' rest.length [] (skipBreak rest)
  | '\'' :: '\'' :: '\'' :: rest => readLines '\'' rest.length [] (skipBreak rest)
  | _ => readQuotedLine s

end Steward.Toml
