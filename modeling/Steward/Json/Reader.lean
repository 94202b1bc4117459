import Steward.Json.Basic
import Steward.Text.Decimal
import Steward.Word

/-!
# Reading JSON text

A strict reader: no comments, no trailing commas, no leading zeros, nothing after the value. Where a
text is broken off or wrong, `Json.read` also gives what stands before the fault, with the open
lists and objects closed there, so that a document can be judged up to its first fault.
-/

namespace Steward.Json

/-- What reading gives: a value and the rest of the text, or what stands before the fault. -/
abbrev Reading := Except (Option Json) (Json × List Char)

/-- The text without the white space of JSON at its start. -/
def skipSpace : List Char → List Char
  | c :: rest => if c = ' ' || c = '\n' || c = '\t' || c = '\r' then skipSpace rest else c :: rest
  | [] => []

/-- The value of a hexadecimal digit. -/
def hexDigit? (c : Char) : Option Nat :=
  let n := c.toNat
  if 48 ≤ n ∧ n ≤ 57 then some (n - 48)
  else if 97 ≤ n ∧ n ≤ 102 then some (n - 87)
  else if 65 ≤ n ∧ n ≤ 70 then some (n - 55)
  else none

/-- The number of four hexadecimal digits, and the rest. -/
def hex4? : List Char → Option (Nat × List Char)
  | a :: b :: c :: d :: rest => do
    let a ← hexDigit? a
    let b ← hexDigit? b
    let c ← hexDigit? c
    let d ← hexDigit? d
    return (((a * 16 + b) * 16 + c) * 16 + d, rest)
  | _ => none

/-- The character of a one-letter escape. -/
def simpleEscape? : Char → Option Char
  | '"' => some '"'
  | '\\' => some '\\'
  | '/' => some '/'
  | 'b' => some '\x08'
  | 'f' => some '\x0c'
  | 'n' => some '\n'
  | 'r' => some '\r'
  | 't' => some '\t'
  | _ => none

/-- Reads up to the closing quote. The characters gathered so far are in reverse order, `none` once
half of a surrogate pair was met. -/
def readString : (fuel : Nat) → (sofar : Option (List Char)) → List Char →
    Option (Option String × List Char)
  | 0, _, _ => none
  | _ + 1, _, [] => none
  | fuel + 1, sofar, c :: rest =>
    if c = '"' then some (sofar.map fun cs => String.ofList cs.reverse, rest)
    else if c = '\\' then
      match rest with
      | 'u' :: rest => do
        let (unit, rest) ← hex4? rest
        if 0xD800 ≤ unit ∧ unit < 0xDC00 then
          match rest with
          | '\\' :: 'u' :: more => do
            let (low, more) ← hex4? more
            if 0xDC00 ≤ low ∧ low < 0xE000 then
              let c := Char.ofNat (0x10000 + (unit - 0xD800) * 0x400 + (low - 0xDC00))
              readString fuel (sofar.map (c :: ·)) more
            else readString fuel none more
          | _ => readString fuel none rest
        else if 0xDC00 ≤ unit ∧ unit < 0xE000 then readString fuel none rest
        else readString fuel (sofar.map (Char.ofNat unit :: ·)) rest
      | e :: rest => do
        let c ← simpleEscape? e
        readString fuel (sofar.map (c :: ·)) rest
      | [] => none
    else if c.toNat < 0x20 then none
    else readString fuel (sofar.map (c :: ·)) rest

/-- The value of a number with a fraction or an exponent, or beyond 64 bits. -/
def floatOf (negative : Bool) (digits : Nat) (exponent : Int) : Json :=
  match Binary64.ofDecimal negative digits exponent with
  | .infinite _ | .nan => unread
  | x => float x

/-- The value of a whole number without fraction and exponent; a negative zero is a float. -/
def wholeOf (negative : Bool) (digits : Nat) : Json :=
  if negative then
    if digits ≠ 0 ∧ (digits : Int) ≤ Word.bound64 then int (-(digits : Int))
    else floatOf negative digits 0
  else if digits < Word.count64 then int digits
  else floatOf negative digits 0

/-- Reads the exponent after its mark: its value, and the rest. -/
def readExponent (s : List Char) : Option (Int × List Char) :=
  let (negative, s) := match s with
    | '+' :: rest => (false, rest)
    | '-' :: rest => (true, rest)
    | _ => (false, s)
  let digits := s.takeWhile Char.isDigit
  if digits.isEmpty then none
  else
    let n : Int := Nat.ofDigitChars 10 digits 0
    some (if negative then -n else n, s.dropWhile Char.isDigit)

/-- Reads a number, its sign already taken. -/
def readNumber (negative : Bool) (s : List Char) : Option (Json × List Char) :=
  let whole := s.takeWhile Char.isDigit
  let rest := s.dropWhile Char.isDigit
  if whole.isEmpty || (whole.head? = some '0' && whole.length > 1) then none
  else
    match rest with
    | '.' :: rest =>
      let fraction := rest.takeWhile Char.isDigit
      let rest := rest.dropWhile Char.isDigit
      if fraction.isEmpty then none
      else
        let digits := Nat.ofDigitChars 10 (whole ++ fraction) 0
        let shift : Int := -(fraction.length : Int)
        match rest with
        | e :: more =>
          if e = 'e' || e = 'E' then
            (readExponent more).map fun (n, more) => (floatOf negative digits (shift + n), more)
          else some (floatOf negative digits shift, rest)
        | [] => some (floatOf negative digits shift, rest)
    | e :: more =>
      let digits := Nat.ofDigitChars 10 whole 0
      if e = 'e' || e = 'E' then
        (readExponent more).map fun (n, more) => (floatOf negative digits n, more)
      else some (wholeOf negative digits, rest)
    | [] => some (wholeOf negative (Nat.ofDigitChars 10 whole 0), rest)

/-- Reads one of the words `null`, `true` and `false`. -/
def readWord (s : List Char) : Option (Json × List Char) :=
  match s with
  | 'n' :: 'u' :: 'l' :: 'l' :: rest => some (null, rest)
  | 't' :: 'r' :: 'u' :: 'e' :: rest => some (bool true, rest)
  | 'f' :: 'a' :: 'l' :: 's' :: 'e' :: rest => some (bool false, rest)
  | _ => none

/-- A reading that leaves nothing behind where it fails. -/
def ofOption? (r : Option (Json × List Char)) : Reading :=
  match r with
  | some r => .ok r
  | none => .error none

/-- The object of fields in reverse order; it is cut where one of its names stands for no text. -/
def closeObject (lost : Option (List (String × Json))) (fields : List (String × Json)) : Json :=
  match lost with
  | none => object fields.reverse
  | some before => cut before.reverse

mutual

/-- Reads a value at the start of a text. Each level of nesting and each item uses up fuel. -/
def readValue : (fuel : Nat) → List Char → Reading
  | 0, _ => .error none
  | fuel + 1, s =>
    match skipSpace s with
    | [] => .error none
    | '"' :: rest =>
      ofOption? ((readString (rest.length + 1) (some []) rest).map fun (t, rest) =>
        ((t.map text).getD unread, rest))
    | '[' :: rest =>
      match skipSpace rest with
      | ']' :: rest => .ok (list [], rest)
      | rest => readItems fuel [] rest
    | '\x7b' :: rest =>
      match skipSpace rest with
      | '\x7d' :: rest => .ok (object [], rest)
      | rest => readFields fuel none [] rest
    | '-' :: rest => ofOption? (readNumber true rest)
    | c :: rest =>
      ofOption? (if c.isDigit then readNumber false (c :: rest) else readWord (c :: rest))

/-- Reads the items of a list up to its end; the items before are in reverse order. -/
def readItems : (fuel : Nat) → (before : List Json) → List Char → Reading
  | 0, before, _ => .error (some (list before.reverse))
  | fuel + 1, before, s =>
    match readValue fuel s with
    | .error none => .error (some (list before.reverse))
    | .error (some v) => .error (some (list (v :: before).reverse))
    | .ok (v, rest) =>
      match skipSpace rest with
      | ',' :: rest => readItems fuel (v :: before) rest
      | ']' :: rest => .ok (list (v :: before).reverse, rest)
      | _ => .error (some (list (v :: before).reverse))

/-- Reads the fields of an object up to its end; the fields before are in reverse order, and `lost`
are those before the first name that stands for no text. -/
def readFields : (fuel : Nat) → (lost : Option (List (String × Json))) →
    (before : List (String × Json)) → List Char → Reading
  | 0, lost, before, _ => .error (some (closeObject lost before))
  | fuel + 1, lost, before, s =>
    match skipSpace s with
    | '"' :: rest =>
      match readString (rest.length + 1) (some []) rest with
      | none => .error (some (closeObject lost before))
      | some (name, rest) =>
        let lost := if name.isSome then lost else lost.or (some before)
        match skipSpace rest with
        | ':' :: rest =>
          match readValue fuel rest with
          | .error none => .error (some (closeObject lost before))
          | .error (some v) => .error (some (closeObject lost ((name.getD "", v) :: before)))
          | .ok (v, rest) =>
            let fields := (name.getD "", v) :: before
            match skipSpace rest with
            | ',' :: rest => readFields fuel lost fields rest
            | '\x7d' :: rest => .ok (closeObject lost fields, rest)
            | _ => .error (some (closeObject lost fields))
        | _ => .error (some (closeObject lost before))
    | _ => .error (some (closeObject lost before))

end

/-- How many lists and objects may stand inside each other in a document that is held whole. -/
def nestingLimit : Nat := 127

/-- The value of a text, or what stands before its first fault. What is nested beyond the limit is
unread. -/
def read (s : String) : Except (Option Json) Json :=
  match readValue (2 * s.length + 2) s.toList with
  | .error before => .error (before.map (clip nestingLimit))
  | .ok (v, rest) =>
    let v := v.clip nestingLimit
    if (skipSpace rest).isEmpty then .ok v else .error (some v)

/-- The value of a text all of whose parts can be held: no half surrogate pairs, no numbers beyond
the doubles, no nesting beyond the limit; objects sorted by name, the last of equal names kept. -/
def readWhole? (s : String) : Option Json :=
  match read s with
  | .ok v => if v.readable then some v.sorted else none
  | .error _ => none

end Steward.Json
