import Steward.Json.Reader
import Steward.Text.Search
import Steward.Time.Civil
import Steward.Toml.Basic
import Steward.Word

/-!
# Numbers, dates and times of TOML

* `ofNumber?`: the number that a word is. Digits may be grouped by single underscores between two of
  them; a decimal number has no leading zeros, and integers have 64 bits.
* `ofMoment?`: the date, the time of day, or both with or without an offset, that a word is. In
  writing, a letter T joins date and time, a Z stands for the offset nothing, and fractions of
  seconds have at most nine digits and no zeros at their end.
-/

namespace Steward.Toml

open Text

/-! ## Numbers -/

/-- Digits without the underscores that group them; each underscore has to stand between two
digits. -/
def ungrouped? (isDigit : Char → Bool) (s : List Char) : Option (List Char) :=
  let groups := splitOn '_' s
  if groups.all fun g => !g.isEmpty && g.all isDigit then some groups.flatten else none

/-- The digits of a decimal number, which has no leading zeros. -/
def wholeDigits? (s : List Char) : Option (List Char) :=
  (ungrouped? Char.isDigit s).filter fun ds => ds.length = 1 || ds.head? ≠ some '0'

/-- The integer, if it has 64 bits. -/
def ofWord? (n : Int) : Option Toml :=
  if -Word.bound64 ≤ n ∧ n < Word.bound64 then some (int n) else none

/-- A natural number written in digits of a base. -/
def ofBase? (base : Nat) (s : List Char) : Option Toml := do
  let isDigit (c : Char) : Bool := match Json.hexDigit? c with
    | some d => d < base
    | none => false
  let ds ← ungrouped? isDigit s
  ofWord? (ds.foldl (fun n c => base * n + (Json.hexDigit? c).getD 0) 0)

/-- The sign of a number, and the number without it. -/
def unsigned : List Char → Bool × List Char
  | '+' :: rest => (false, rest)
  | '-' :: rest => (true, rest)
  | s => (false, s)

/-- An exponent, which may have leading zeros. -/
def exponent? (s : List Char) : Option Int := do
  let (negative, s) := unsigned s
  let ds ← ungrouped? Char.isDigit s
  let n : Int := Nat.ofDigitChars 10 ds 0
  return if negative then -n else n

/-- The float of its parts; only negative ones may be beyond all finite numbers. -/
def ofParts? (negative : Bool) (whole fraction : List Char) (exponent : Int) : Option Toml :=
  let x := Binary64.ofDecimal negative (Nat.ofDigitChars 10 (whole ++ fraction) 0)
    (exponent - fraction.length)
  if x = .infinite false then none else some (float x)

/-- A decimal number without its sign. -/
def ofDecimal? (negative : Bool) (s : List Char) : Option Toml := do
  let mantissa := s.takeWhile fun c => c ≠ 'e' && c ≠ 'E'
  let (whole, fraction) := match cut? ['.'] mantissa with
    | some (whole, fraction) => (whole, some fraction)
    | none => (mantissa, none)
  let whole ← wholeDigits? whole
  let digits ← match fraction with
    | some f => (ungrouped? Char.isDigit f).map some
    | none => some none
  match s.drop mantissa.length, digits with
  | [], none =>
    let n : Int := Nat.ofDigitChars 10 whole 0
    ofWord? (if negative then -n else n)
  | [], some fraction => ofParts? negative whole fraction 0
  | _ :: e, fraction => ofParts? negative whole (fraction.getD []) (← exponent? e)

/-- The number that a word is. -/
def ofNumber? (s : List Char) : Option Toml :=
  match s with
  | '0' :: 'x' :: digits => ofBase? 16 digits
  | '0' :: 'o' :: digits => ofBase? 8 digits
  | '0' :: 'b' :: digits => ofBase? 2 digits
  | _ =>
    let (negative, rest) := unsigned s
    match rest with
    | ['i', 'n', 'f'] => some (float (.infinite negative))
    | ['n', 'a', 'n'] => some (float .nan)
    | _ => ofDecimal? negative rest

/-! ## Dates and times -/

/-- The number of exactly `count` digits at the start, and the rest. -/
def readTwo (count : Nat) (s : List Char) : Option (Nat × List Char) :=
  let digits := s.take count
  if digits.length = count then (ofNumeral? digits).map (·, s.drop count) else none

/-- The canonical text of the date at the start, and the rest. -/
def readDate (s : List Char) : Option (List Char × List Char) := do
  let (year, s) ← readTwo 4 s
  let s ← after? ['-'] s
  let (month, s) ← readTwo 2 s
  let s ← after? ['-'] s
  let (day, s) ← readTwo 2 s
  if Time.Date.Valid ⟨year, month, day⟩ then
    return (padded 4 year ++ ['-'] ++ padded 2 month ++ ['-'] ++ padded 2 day, s)
  else none

/-- The canonical text of the fraction of a second at the start, and the rest. -/
def readSecondFraction (s : List Char) : Option (List Char × List Char) :=
  match s with
  | '.' :: rest =>
    let digits := rest.takeWhile Char.isDigit
    let kept := ((digits.take 9).reverse.dropWhile (· = '0')).reverse
    if digits.isEmpty then none
    else some (if kept.isEmpty then [] else '.' :: kept, rest.drop digits.length)
  | _ => some ([], s)

/-- The canonical text of the time of day at the start, and the rest. -/
def readTime (s : List Char) : Option (List Char × List Char) := do
  let (hour, s) ← readTwo 2 s
  let s ← after? [':'] s
  let (minute, s) ← readTwo 2 s
  let s ← after? [':'] s
  let (second, s) ← readTwo 2 s
  let (fraction, s) ← readSecondFraction s
  if hour ≤ 23 ∧ minute ≤ 59 ∧ second ≤ 60 then
    return (padded 2 hour ++ [':'] ++ padded 2 minute ++ [':'] ++ padded 2 second ++ fraction, s)
  else none

/-- The canonical text of an offset, or of none. -/
def offset? (s : List Char) : Option (List Char) :=
  match s with
  | [] => some []
  | ['Z'] | ['z'] => some ['Z']
  | sign :: rest => do
    let (hour, rest) ← readTwo 2 rest
    let rest ← after? [':'] rest
    let (minute, rest) ← readTwo 2 rest
    if (sign = '+' ∨ sign = '-') ∧ hour ≤ 23 ∧ minute ≤ 59 ∧ rest = [] then
      let sign := if hour = 0 ∧ minute = 0 then '+' else sign
      return sign :: padded 2 hour ++ [':'] ++ padded 2 minute
    else none

/-- The date or time that a word is. -/
def ofMoment? (s : List Char) : Option Toml :=
  match readDate s with
  | some (date, []) => some (moment (String.ofList date))
  | some (date, mark :: rest) => do
    if mark = 'T' || mark = 't' || mark = ' ' then
      let (time, rest) ← readTime rest
      let offset ← offset? rest
      return moment (String.ofList (date ++ ['T'] ++ time ++ offset))
    else none
  | none =>
    match readTime s with
    | some (time, []) => some (moment (String.ofList time))
    | _ => none

end Steward.Toml
