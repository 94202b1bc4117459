/-!
# Calendar dates

The proleptic Gregorian calendar, with days numbered from 1970-01-01. Years begin in March inside
the computation, so that a leap day is the last day of its year; 400 years are one era of 146097
days.

* `Date.toDays`, `Date.ofDays`: the number of a date's day, and the date of a day.
-/

namespace Steward.Time

/-- A calendar date. -/
structure Date where
  year : Int
  month : Nat
  day : Nat
deriving DecidableEq, Repr

namespace Date

/-- Whether a year has a 29 February. -/
def isLeap (year : Int) : Bool := year % 4 = 0 && (year % 100 ≠ 0 || year % 400 = 0)

/-- How many days a month has. -/
def daysInMonth (year : Int) (month : Nat) : Nat :=
  match month with
  | 2 => if isLeap year then 29 else 28
  | 4 | 6 | 9 | 11 => 30
  | _ => 31

/-- Whether month and day exist in the year. -/
def Valid (d : Date) : Prop :=
  1 ≤ d.month ∧ d.month ≤ 12 ∧ 1 ≤ d.day ∧ d.day ≤ daysInMonth d.year d.month

instance (d : Date) : Decidable d.Valid := inferInstanceAs (Decidable (_ ∧ _))

/-- The days before the month that is `m` months after March, counted from 1 March. -/
def daysBeforeMonth (m : Nat) : Nat := (153 * m + 2) / 5

/-- The number of a day, 1970-01-01 being 0. -/
def toDays (d : Date) : Int :=
  let shifted := if d.month ≤ 2 then d.year - 1 else d.year
  let era := shifted / 400
  let yearOfEra := shifted % 400
  let dayOfYear := daysBeforeMonth ((d.month + 9) % 12) + (d.day - 1)
  era * 146097 + (yearOfEra * 365 + yearOfEra / 4 - yearOfEra / 100) + dayOfYear - 719468

/-- The date of a day number. -/
def ofDays (n : Int) : Date :=
  let n := n + 719468
  let era := n / 146097
  let dayOfEra := (n % 146097).toNat
  let century := min (dayOfEra / 36524) 3
  let inCentury := dayOfEra - century * 36524
  let cycle := inCentury / 1461
  let inCycle := inCentury - cycle * 1461
  let yearOfCycle := min (inCycle / 365) 3
  let dayOfYear := inCycle - yearOfCycle * 365
  let m := (5 * dayOfYear + 2) / 153
  let month := if m < 10 then m + 3 else m - 9
  let year := era * 400 + (century * 100 + cycle * 4 + yearOfCycle : Nat)
  ⟨if month ≤ 2 then year + 1 else year, month, dayOfYear - daysBeforeMonth m + 1⟩

end Date

end Steward.Time
