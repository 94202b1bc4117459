import Steward.Json.Basic
import Steward.Text.Decimal

/-!
# Writing JSON text

One line, without spaces, fields in the order of the value.
-/

namespace Steward.Json

/-- The written form of a character inside a JSON string. -/
def escapedChar (c : Char) : List Char :=
  match c with
  | '"' => ['\\', '"']
  | '\\' => ['\\', '\\']
  | '\n' => ['\\', 'n']
  | '\r' => ['\\', 'r']
  | '\t' => ['\\', 't']
  | c =>
    if c.toNat < 0x20 then
      let digits := Nat.toDigits 16 c.toNat
      ['\\', 'u'] ++ List.replicate (4 - digits.length) '0' ++ digits
    else [c]

/-- A JSON string literal. -/
def literal (s : String) : List Char := '"' :: (s.toList.flatMap escapedChar ++ ['"'])

/-- A float, with a point even where it is a whole number. -/
def floatChars (x : Binary64) : List Char :=
  let digits := x.text.toList
  if digits.contains '.' then digits else digits ++ ['.', '0']

mutual

/-- The characters of a value. -/
def chars : Json → List Char
  | null => ['n', 'u', 'l', 'l']
  | bool true => ['t', 'r', 'u', 'e']
  | bool false => ['f', 'a', 'l', 's', 'e']
  | int n => Text.intNumeral n
  | float x => floatChars x
  | text s => literal s
  | list items => '[' :: (charsOfItems items ++ [']'])
  | object fields => '\x7b' :: (charsOfFields fields ++ ['\x7d'])
  | unread | cut _ => ['n', 'u', 'l', 'l']

/-- The characters of items, with commas between them. -/
def charsOfItems : List Json → List Char
  | [] => []
  | [v] => chars v
  | v :: rest => chars v ++ ',' :: charsOfItems rest

/-- The characters of fields, with commas between them. -/
def charsOfFields : List (String × Json) → List Char
  | [] => []
  | [(n, v)] => literal n ++ ':' :: chars v
  | (n, v) :: rest => literal n ++ ':' :: (chars v ++ ',' :: charsOfFields rest)

end

/-- The text of a value. -/
def render (v : Json) : String := String.ofList v.chars

end Steward.Json
