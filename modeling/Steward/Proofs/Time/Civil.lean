import Mathlib.Tactic.IntervalCases
import Steward.Time.Civil

/-!
# Dates and day numbers

The date of a day number exists, and its number is that day number again. Both are seen on years
that begin in March, where a day is found by its year and its number in the year
(`Date.ofMarchDay`): only a leap year has a day 365, its last.

* `Date.exists_ofMarchDay`: every day number is a day of a year that begins in March.
* `Date.valid_ofDays`, `Date.toDays_ofDays`.
-/

namespace Steward.Time.Date

/-- The date of a day of a year that begins in March of `year`, its first day being 0. -/
def ofMarchDay (year : Int) (day : Nat) : Date :=
  let m := (5 * day + 2) / 153
  let month := if m < 10 then m + 3 else m - 9
  ⟨if month ≤ 2 then year + 1 else year, month, day - daysBeforeMonth m + 1⟩

/-- A year that begins in March has a day 365 only if its February has 29 days. -/
def HasMarchDay (year : Int) (day : Nat) : Prop :=
  day ≤ 365 ∧ (day = 365 → isLeap (year + 1) = true)

/-- The number of the first of March, 1970-01-01 being 0. -/
def marchStart (year : Int) : Int :=
  year / 400 * 146097 + (year % 400 * 365 + year % 400 / 4 - year % 400 / 100) - 719468

theorem marchStart_of_parts (era : Int) {century cycle year : Nat} (hcentury : century ≤ 3)
    (hcycle : cycle ≤ 24) (hyear : year ≤ 3) :
    marchStart (era * 400 + (century * 100 + cycle * 4 + year : Nat)) =
      era * 146097 + (century * 36524 + cycle * 1461 + year * 365 : Nat) - 719468 := by
  have hera : (era * 400 + (century * 100 + cycle * 4 + year : Nat)) / 400 = era := by omega
  have hinEra : (era * 400 + (century * 100 + cycle * 4 + year : Nat)) % 400 =
      (century * 100 + cycle * 4 + year : Nat) := by omega
  rw [marchStart, hera, hinEra]
  omega

/-- An era is cut into centuries, those into cycles of four years, and those into years. The last
century of an era and the last year of a cycle are a day longer, and the last cycle of a century is
a day shorter unless it ends the era. -/
theorem exists_ofMarchDay (n : Int) :
    ∃ year day, HasMarchDay year day ∧ n = marchStart year + (day : Nat) ∧
      ofDays n = ofMarchDay year day := by
  obtain ⟨dayOfEra, hdayOfEra⟩ : ∃ d : Nat, (n + 719468) % 146097 = d :=
    ⟨((n + 719468) % 146097).toNat, by omega⟩
  obtain ⟨century, hcentury⟩ : ∃ c, min (dayOfEra / 36524) 3 = c := ⟨_, rfl⟩
  obtain ⟨cycle, hcycle⟩ : ∃ q, (dayOfEra - century * 36524) / 1461 = q := ⟨_, rfl⟩
  obtain ⟨year, hyear⟩ : ∃ y, min ((dayOfEra - century * 36524 - cycle * 1461) / 365) 3 = y :=
    ⟨_, rfl⟩
  obtain ⟨day, hday⟩ :
      ∃ d, dayOfEra - century * 36524 - cycle * 1461 - year * 365 = d := ⟨_, rfl⟩
  have hbounds : century ≤ 3 ∧ cycle ≤ 24 ∧ year ≤ 3 ∧ day ≤ 365 := by omega
  -- Day 365 is the last of a cycle, and of the last cycle of a century only in the last century.
  have hlast : day = 365 → year = 3 ∧ (cycle = 24 → century = 3) := by omega
  have hsum : dayOfEra = century * 36524 + cycle * 1461 + year * 365 + day := by omega
  refine ⟨(n + 719468) / 146097 * 400 + (century * 100 + cycle * 4 + year : Nat), day,
    ⟨hbounds.2.2.2, fun h => ?_⟩, ?_, ?_⟩
  · obtain ⟨rfl, hend⟩ := hlast h
    simp only [isLeap, Bool.and_eq_true, Bool.or_eq_true, decide_eq_true_eq]
    omega
  · rw [marchStart_of_parts _ hbounds.1 hbounds.2.1 hbounds.2.2.1]
    omega
  · simp only [ofDays, ofMarchDay, hdayOfEra, Int.toNat_natCast, hcentury, hcycle, hyear, hday]

section

variable {year : Int} {day : Nat}

/-- The months of a year that begins in March: the day lies in the month that is found for it. -/
theorem month_ofMarchDay (h : day ≤ 365) :
    (5 * day + 2) / 153 ≤ 11 ∧ daysBeforeMonth ((5 * day + 2) / 153) ≤ day ∧
      day < daysBeforeMonth ((5 * day + 2) / 153 + 1) := by
  simp only [daysBeforeMonth]
  omega

/-- Every month but February, which ends the year, is as long in any year. -/
theorem daysBeforeMonth_succ (year : Int) {m : Nat} (h : m < 11) :
    daysBeforeMonth (m + 1) =
      daysBeforeMonth m + daysInMonth year (if m < 10 then m + 3 else m - 9) := by
  interval_cases m <;> rfl

theorem valid_ofMarchDay (h : HasMarchDay year day) : (ofMarchDay year day).Valid := by
  obtain ⟨hle, hleap⟩ := h
  obtain ⟨hm, hfrom, hto⟩ := month_ofMarchDay hle
  obtain ⟨m, hmonth⟩ : ∃ m, (5 * day + 2) / 153 = m := ⟨_, rfl⟩
  rw [hmonth] at hm hfrom hto
  simp only [ofMarchDay, Valid, hmonth]
  obtain rfl | hlt := Nat.eq_or_lt_of_le hm
  -- The last month is February, which has day 365 only in a leap year.
  · have hfeb : day = 365 → daysInMonth (year + 1) 2 = 29 := fun h => if_pos (hleap h)
    have hshort : 28 ≤ daysInMonth (year + 1) 2 := by
      simp only [daysInMonth]
      split <;> omega
    have hstart : daysBeforeMonth 11 = 337 := rfl
    have hend : daysBeforeMonth (11 + 1) = 367 := rfl
    simp only [Nat.reduceLT, if_false, Nat.reduceSub, Nat.le_refl, if_true]
    omega
  · rw [daysBeforeMonth_succ (if (if m < 10 then m + 3 else m - 9) ≤ 2 then year + 1 else year)
      hlt] at hto
    refine ⟨?_, ?_, by omega, by omega⟩ <;> split <;> omega

theorem toDays_ofMarchDay (h : day ≤ 365) :
    (ofMarchDay year day).toDays = marchStart year + day := by
  obtain ⟨hm, hfrom, -⟩ := month_ofMarchDay h
  obtain ⟨m, hmonth⟩ : ∃ m, (5 * day + 2) / 153 = m := ⟨_, rfl⟩
  rw [hmonth] at hm hfrom
  simp only [ofMarchDay, toDays, marchStart, hmonth]
  have hfound : ((if m < 10 then m + 3 else m - 9) + 9) % 12 = m := by
    split <;> omega
  have hshift : (if (if m < 10 then m + 3 else m - 9) ≤ 2 then
      (if (if m < 10 then m + 3 else m - 9) ≤ 2 then year + 1 else year) - 1
      else if (if m < 10 then m + 3 else m - 9) ≤ 2 then year + 1 else year) = year := by
    split <;> omega
  rw [hfound, hshift]
  omega

end

theorem valid_ofDays (n : Int) : (ofDays n).Valid := by
  obtain ⟨year, day, hday, -, hdate⟩ := exists_ofMarchDay n
  rw [hdate]
  exact valid_ofMarchDay hday

@[simp] theorem toDays_ofDays (n : Int) : (ofDays n).toDays = n := by
  obtain ⟨year, day, hday, hn, hdate⟩ := exists_ofMarchDay n
  rw [hdate, toDays_ofMarchDay hday.1, hn]

end Steward.Time.Date
