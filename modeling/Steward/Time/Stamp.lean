import Steward.Text.Blank
import Steward.Text.Decimal
import Steward.Time.Instant

/-!
# Time stamps

The written form of an instant, `2025-01-31T09:05:00.250Z`: in UTC, with no, three, six or nine
fractional digits, the fewest that lose nothing. The reader takes any offset from UTC, any number
of fractional digits (those after the ninth are dropped) and space around the numbers.
-/

namespace Steward.Time

open Steward.Text

/-- The year of a written date: four digits, or a sign and at least four. -/
def yearText (year : Int) : List Char :=
  if 0 ≤ year ∧ year ≤ 9999 then padded 4 year.toNat
  else (if year < 0 then '-' else '+') :: padded 4 year.natAbs

/-- The fraction of a second, behind its point, or nothing. -/
def fractionText (nano : Nat) : List Char :=
  if nano = 0 then []
  else if nano % 1000000 = 0 then '.' :: padded 3 (nano / 1000000)
  else if nano % 1000 = 0 then '.' :: padded 6 (nano / 1000)
  else '.' :: padded 9 nano

/-- The characters of an instant's written form. -/
def Instant.stampChars (t : Instant) : List Char :=
  let d := Date.ofDays (t.second / 86400)
  let ofDay := t.secondOfDay.toNat
  let second := ofDay % 60 + (if t.isLeap then 1 else 0)
  let nano := if t.isLeap then t.nano - 1000000000 else t.nano
  yearText d.year ++ '-' :: padded 2 d.month ++ '-' :: padded 2 d.day ++
    'T' :: padded 2 (ofDay / 3600) ++ ':' :: padded 2 (ofDay / 60 % 60) ++ ':' :: padded 2 second ++
    fractionText nano ++ ['Z']

/-- The written form of an instant. -/
def Instant.stamp (t : Instant) : String := String.ofList t.stampChars

/-! ## Reading -/

/-- Reads between one and `most` digits, behind blank characters. -/
def readDigits (most : Nat) (s : List Char) : Option (Nat × List Char) :=
  let s := trimStart s
  let digits := (s.take most).takeWhile Char.isDigit
  if digits.isEmpty then none else some (Nat.ofDigitChars 10 digits 0, s.drop digits.length)

/-- Reads a year: up to four digits, or a sign and any number of them. -/
def readYear (s : List Char) : Option (Int × List Char) :=
  match trimStart s with
  | '-' :: rest =>
    let digits := rest.takeWhile Char.isDigit
    if digits.isEmpty then none
    else some (-(Nat.ofDigitChars 10 digits 0 : Int), rest.drop digits.length)
  | '+' :: rest =>
    let digits := rest.takeWhile Char.isDigit
    if digits.isEmpty then none
    else some ((Nat.ofDigitChars 10 digits 0 : Int), rest.drop digits.length)
  | s => (readDigits 4 s).map fun (n, rest) => ((n : Int), rest)

/-- Reads a character that blank characters may precede. -/
def readMark (mark : Char) (s : List Char) : Option (List Char) :=
  match trimStart s with
  | c :: rest => if c = mark then some rest else none
  | [] => none

/-- Reads an optional fraction of a second, in nanoseconds. -/
def readFraction (s : List Char) : Option (Nat × List Char) :=
  match s with
  | '.' :: rest =>
    let digits := rest.takeWhile Char.isDigit
    if digits.isEmpty then none
    else
      let kept := digits.take 9
      some (Nat.ofDigitChars 10 kept 0 * Nat.pow 10 (9 - kept.length), rest.drop digits.length)
  | _ => some (0, s)

/-- Reads an offset from UTC, in seconds. -/
def readOffset (s : List Char) : Option (Int × List Char) :=
  match s with
  | 'Z' :: rest => some (0, rest)
  | 'z' :: rest => some (0, rest)
  | u :: t :: c :: rest =>
    if (u = 'U' ∨ u = 'u') ∧ (t = 'T' ∨ t = 't') ∧ (c = 'C' ∨ c = 'c') then some (0, rest)
    else if u = '+' ∨ u = '-' ∨ u = '−' then
      if t.isDigit ∧ c.isDigit then
        match rest.dropWhile fun c => c = ':' || isBlank c with
        | m :: n :: rest =>
          if m.isDigit ∧ n.isDigit ∧ m < '6' then
            let hours := Nat.ofDigitChars 10 [t, c] 0
            let seconds : Int := hours * 3600 + Nat.ofDigitChars 10 [m, n] 0 * 60
            if hours < 24 then some (if u = '+' then seconds else -seconds, rest) else none
          else none
        | _ => none
      else none
    else none
  | _ => none

/-- The instant of a date, a time of day and an offset from UTC; second 60 is a leap second. -/
def Instant.ofParts? (d : Date) (hour minute second nano : Nat) (offset : Int) : Option Instant :=
  if -262143 ≤ d.year ∧ d.year ≤ 262142 ∧ d.Valid ∧ hour < 24 ∧ minute < 60 then
    let start := d.toDays * 86400 + hour * 3600 + minute * 60 - offset
    if h : nano < 1000000000 then
      if second < 60 then some ⟨start + second, nano, Or.inl h⟩
      else if hs : second = 60 ∧ (start + 59) % 60 = 59 then
        some ⟨start + 59, nano + 1000000000, Or.inr ⟨by omega, hs.2⟩⟩
      else none
    else none
  else none

/-- Reads the characters of a time stamp. -/
def Instant.readChars (s : List Char) : Option Instant := do
  let (year, s) ← readYear s
  let s ← readMark '-' s
  let (month, s) ← readDigits 2 s
  let s ← readMark '-' s
  let (day, s) ← readDigits 2 s
  let s ← match s with
    | c :: rest => if c = 'T' ∨ c = 't' ∨ c = ' ' then some rest else none
    | [] => none
  let (hour, s) ← readDigits 2 s
  let s ← readMark ':' s
  let (minute, s) ← readDigits 2 s
  let s ← readMark ':' s
  let (second, s) ← readDigits 2 s
  let (nano, s) ← readFraction s
  let (offset, s) ← readOffset (trimStart s)
  if (trimStart s).isEmpty then Instant.ofParts? ⟨year, month, day⟩ hour minute second nano offset
  else none

/-- Reads a time stamp. -/
def Instant.read? (s : String) : Option Instant := Instant.readChars s.toList

end Steward.Time
