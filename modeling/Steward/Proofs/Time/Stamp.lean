import Steward.Proofs.Time.Civil
import Steward.Time.Stamp

/-!
# Reading time stamps back

The written form of an instant of a year of four digits is read as that instant again, also inside a
leap second. Every part is read off the front of the text: a number of fixed width, a mark, the
fraction up to the first character that is no digit.

* `readDigits_padded`, `readYear_padded`, `readFraction_fractionText`: one part at a time.
* `Instant.ofParts?_parts`: the parts that are written make up the instant.
* `Instant.read?_stamp`: so the whole stamp is read back.
-/

namespace Steward.Time

open Steward.Text

/-! ## Parts of a stamp -/

theorem bind_of_eq_some {α β : Type} {x : Option α} {a : α} {f : α → Option β} (h : x = some a) :
    x >>= f = f a := by
  rw [h]
  rfl

theorem not_isBlank_of_isDigit {c : Char} (h : c.isDigit = true) : isBlank c = false := by
  simp only [Char.isDigit, Bool.and_eq_true, decide_eq_true_eq, UInt32.le_iff_toNat_le] at h
  have hfrom : 48 ≤ c.toNat := h.1
  have hto : c.toNat ≤ 57 := h.2
  simp only [isBlank, Bool.or_eq_false_iff, Bool.and_eq_false_iff, decide_eq_false_iff_not,
    beq_eq_false_iff_ne]
  omega

theorem trimStart_cons {c : Char} (h : isBlank c = false) (s : List Char) :
    trimStart (c :: s) = c :: s := by
  rw [trimStart, trimStartBy, List.dropWhile_cons, h, if_neg Bool.false_ne_true]

section

variable {width n : Nat} {s : List Char}

theorem length_padded (hwidth : 0 < width) (h : n < 10 ^ width) :
    (padded width n).length = width := by
  have hle := (Nat.length_toDigits_le_iff (by decide) hwidth).2 h
  rw [padded, List.length_append, List.length_replicate, numeral]
  omega

theorem exists_padded_eq_cons (hwidth : 0 < width) (h : n < 10 ^ width) :
    ∃ c rest, padded width n = c :: rest ∧ c.isDigit = true := by
  have hlength := length_padded hwidth h
  cases hp : padded width n with
  | nil => rw [hp, List.length_nil] at hlength; omega
  | cons c rest => exact ⟨c, rest, rfl, isDigit_of_mem_padded (by rw [hp]; exact .head _)⟩

theorem isEmpty_padded (hwidth : 0 < width) (h : n < 10 ^ width) :
    (padded width n).isEmpty = false := by
  obtain ⟨c, rest, hp, -⟩ := exists_padded_eq_cons hwidth h
  rw [hp]
  rfl

theorem trimStart_padded (hwidth : 0 < width) (h : n < 10 ^ width) :
    trimStart (padded width n ++ s) = padded width n ++ s := by
  obtain ⟨c, rest, hp, hdigit⟩ := exists_padded_eq_cons hwidth h
  rw [hp]
  exact trimStart_cons (not_isBlank_of_isDigit hdigit) _

theorem readDigits_padded (hwidth : 0 < width) (h : n < 10 ^ width) :
    readDigits width (padded width n ++ s) = some (n, s) := by
  have hlength := length_padded hwidth h
  have hdigits : ((padded width n ++ s).take width).takeWhile Char.isDigit = padded width n := by
    rw [List.take_left' hlength]
    rw [← List.append_nil (padded width n), List.takeWhile_append_of_pos fun c hc =>
      isDigit_of_mem_padded hc]
    rfl
  simp only [readDigits, trimStart_padded hwidth h, hdigits, isEmpty_padded hwidth h,
    Bool.false_eq_true, if_false, ofDigitChars_padded, List.drop_left]

theorem readYear_padded (h : n < 10000) :
    readYear (padded 4 n ++ s) = some ((n : Int), s) := by
  have hwidth : 0 < 4 := by decide
  obtain ⟨c, rest, hp, hdigit⟩ := exists_padded_eq_cons hwidth h
  have hread : readDigits 4 (padded 4 n ++ s) = some (n, s) := readDigits_padded hwidth h
  -- A digit is no sign, so the year is read as four digits.
  have hminus : c ≠ '-' := by rintro rfl; exact absurd hdigit (by decide)
  have hplus : c ≠ '+' := by rintro rfl; exact absurd hdigit (by decide)
  rw [readYear, trimStart_padded hwidth h, hp, List.cons_append]
  split
  · next heq => exact absurd (List.cons.inj heq).1 hminus
  · next heq => exact absurd (List.cons.inj heq).1 hplus
  · rw [← List.cons_append, ← hp, hread]
    rfl

theorem readMark_cons {mark : Char} (h : isBlank mark = false) (s : List Char) :
    readMark mark (mark :: s) = some s := by
  rw [readMark, trimStart_cons h]
  exact if_pos rfl

/-- A fraction of `width` digits, `scale` being the nanoseconds of a unit in its last place. -/
theorem readFraction_padded {scale : Nat} (hwidth : 0 < width) (hle : width ≤ 9)
    (h : n < 10 ^ width) (hscale : 10 ^ (9 - width) = scale)
    (hs : ∀ c ∈ s.head?, c.isDigit = false) :
    readFraction ('.' :: (padded width n ++ s)) = some (n * scale, s) := by
  have hlength := length_padded hwidth h
  have hdigits : (padded width n ++ s).takeWhile Char.isDigit = padded width n := by
    rw [List.takeWhile_append_of_pos fun c hc => isDigit_of_mem_padded hc]
    cases s with
    | nil => simp
    | cons c rest => rw [List.takeWhile_cons, hs c rfl]; simp
  have hkept : (padded width n).take 9 = padded width n := List.take_of_length_le (by omega)
  simp only [readFraction, hdigits, isEmpty_padded hwidth h, Bool.false_eq_true, if_false, hkept,
    ofDigitChars_padded, hlength, List.drop_left' hlength]
  rw [← hscale]
  rfl

theorem readFraction_fractionText {nano : Nat} (h : nano < 1000000000)
    (hs : ∀ c ∈ s.head?, c.isDigit = false) (hpoint : s.head? ≠ some '.') :
    readFraction (fractionText nano ++ s) = some (nano, s) := by
  unfold fractionText
  split
  · next hzero =>
    subst hzero
    cases s with
    | nil => rfl
    | cons c rest =>
      rw [List.nil_append, readFraction.eq_2]
      intro more heq
      exact hpoint (congrArg List.head? heq)
  · split
    · next hmillis =>
      rw [List.cons_append, readFraction_padded (by decide) (by decide) (by omega)
        (by decide : _ = 1000000) hs]
      congr 2
      omega
    · split
      · next hmicros =>
        rw [List.cons_append, readFraction_padded (by decide) (by decide) (by omega)
          (by decide : _ = 1000) hs]
        congr 2
        omega
      · rw [List.cons_append, readFraction_padded (by decide) (by decide) (by omega)
          (by decide : _ = 1) hs, Nat.mul_one]

end

/-! ## Whole stamps -/

namespace Instant

/-- Whether the year of an instant, in UTC, has four digits. -/
def HasPlainYear (t : Instant) : Prop :=
  0 ≤ (Date.ofDays (t.second / 86400)).year ∧ (Date.ofDays (t.second / 86400)).year ≤ 9999

instance (t : Instant) : Decidable t.HasPlainYear := inferInstanceAs (Decidable (_ ∧ _))

variable {t : Instant}

theorem ofParts?_of_plain {d : Date} {hour minute second nano : Nat}
    (hyear : -262143 ≤ d.year ∧ d.year ≤ 262142) (hd : d.Valid) (hhour : hour < 24)
    (hminute : minute < 60) (hsecond : second < 60) (hnano : nano < 1000000000)
    (hsum : d.toDays * 86400 + hour * 3600 + minute * 60 + second = t.second)
    (hrest : nano = t.nano) : ofParts? d hour minute second nano 0 = some t := by
  obtain ⟨s, n, hvalid⟩ := t
  obtain rfl : d.toDays * 86400 + hour * 3600 + minute * 60 + second = s := hsum
  obtain rfl : nano = n := hrest
  rw [ofParts?, if_pos ⟨hyear.1, hyear.2, hd, hhour, hminute⟩, dif_pos hnano, if_pos hsecond]
  simp only [Int.sub_zero]

/-- Second 60 is the rest of a leap second, which begins as the last second of its minute ends. -/
theorem ofParts?_of_leap {d : Date} {hour minute nano : Nat}
    (hyear : -262143 ≤ d.year ∧ d.year ≤ 262142) (hd : d.Valid) (hhour : hour < 24)
    (hminute : minute < 60) (hnano : nano < 1000000000)
    (hsum : d.toDays * 86400 + hour * 3600 + minute * 60 + 59 = t.second)
    (hrest : nano + 1000000000 = t.nano) : ofParts? d hour minute 60 nano 0 = some t := by
  obtain ⟨s, n, hvalid⟩ := t
  obtain rfl : d.toDays * 86400 + hour * 3600 + minute * 60 + 59 = s := hsum
  obtain rfl : nano + 1000000000 = n := hrest
  rw [ofParts?, if_pos ⟨hyear.1, hyear.2, hd, hhour, hminute⟩, dif_pos hnano,
    if_neg (Nat.lt_irrefl 60), dif_pos ⟨rfl, by omega⟩]
  simp only [Int.sub_zero]

/-- The date, the time of day and the nanoseconds that are written for an instant make it up. -/
theorem ofParts?_parts (h : t.HasPlainYear) :
    ofParts? (Date.ofDays (t.second / 86400)) (t.secondOfDay.toNat / 3600)
      (t.secondOfDay.toNat / 60 % 60) (t.secondOfDay.toNat % 60 + (if t.isLeap then 1 else 0))
      (if t.isLeap then t.nano - 1000000000 else t.nano) 0 = some t := by
  obtain ⟨hfrom, hto⟩ := h
  have hyear : -262143 ≤ (Date.ofDays (t.second / 86400)).year ∧
      (Date.ofDays (t.second / 86400)).year ≤ 262142 := by omega
  have hd := Date.valid_ofDays (t.second / 86400)
  have hvalid := t.valid
  have hofDay : 0 ≤ t.secondOfDay ∧ t.secondOfDay = t.second - t.second / 86400 * 86400 := by
    simp only [secondOfDay]
    omega
  cases hleap : t.isLeap with
  | false =>
    simp only [isLeap, decide_eq_false_iff_not] at hleap
    refine ofParts?_of_plain hyear hd (by omega) (by omega) ?_ ?_ ?_ ?_ <;>
      simp only [Date.toDays_ofDays, Bool.false_eq_true, if_false] <;> omega
  | true =>
    simp only [isLeap, decide_eq_true_eq] at hleap
    -- Inside a leap second the written second is 60.
    have hlast : t.secondOfDay.toNat % 60 = 59 := by omega
    simp only [if_true, hlast]
    refine ofParts?_of_leap hyear hd (by omega) (by omega) (by omega) ?_ (by omega)
    rw [Date.toDays_ofDays]
    omega

/-- Month, day and time of day are written in two digits each. -/
theorem parts_lt (t : Instant) :
    (Date.ofDays (t.second / 86400)).month < 100 ∧ (Date.ofDays (t.second / 86400)).day < 100 ∧
      t.secondOfDay.toNat / 3600 < 100 ∧ t.secondOfDay.toNat / 60 % 60 < 100 ∧
      t.secondOfDay.toNat % 60 + (if t.isLeap then 1 else 0) < 100 ∧
      (if t.isLeap then t.nano - 1000000000 else t.nano) < 1000000000 := by
  obtain ⟨-, hmonth, -, hday⟩ := Date.valid_ofDays (t.second / 86400)
  have hlong : Date.daysInMonth (Date.ofDays (t.second / 86400)).year
      (Date.ofDays (t.second / 86400)).month ≤ 31 := by
    unfold Date.daysInMonth
    split
    · split <;> decide
    all_goals decide
  have hofDay : t.secondOfDay.toNat < 86400 := by
    simp only [secondOfDay]
    omega
  have hvalid := t.valid
  refine ⟨by omega, by omega, by omega, by omega, by split <;> omega, ?_⟩
  simp only [isLeap, decide_eq_true_eq]
  split <;> omega

theorem readChars_parts {year month day hour minute second nano : Nat} (hyear : year < 10000)
    (hmonth : month < 100) (hday : day < 100) (hhour : hour < 100) (hminute : minute < 100)
    (hsecond : second < 100) (hnano : nano < 1000000000) :
    readChars (padded 4 year ++ '-' :: (padded 2 month ++ '-' :: (padded 2 day ++
        'T' :: (padded 2 hour ++ ':' :: (padded 2 minute ++ ':' :: (padded 2 second ++
          (fractionText nano ++ ['Z']))))))) =
      ofParts? ⟨year, month, day⟩ hour minute second nano 0 := by
  have hdash : ∀ s, readMark '-' ('-' :: s) = some s := readMark_cons (by decide)
  have hcolon : ∀ s, readMark ':' (':' :: s) = some s := readMark_cons (by decide)
  have hdigits : ∀ {n s}, n < 100 → readDigits 2 (padded 2 n ++ s) = some (n, s) :=
    fun h => readDigits_padded (by decide) h
  have hfraction := readFraction_fractionText (s := ['Z']) hnano
    (by rintro c ⟨⟩; rfl) (by decide)
  have hutc : readOffset (trimStart ['Z']) = some (0, []) := by decide
  refine (bind_of_eq_some (readYear_padded hyear)).trans ?_
  refine (bind_of_eq_some (hdash _)).trans <| (bind_of_eq_some (hdigits hmonth)).trans ?_
  refine (bind_of_eq_some (hdash _)).trans <| (bind_of_eq_some (hdigits hday)).trans ?_
  refine (if_pos (Or.inl rfl)).trans <| (bind_of_eq_some (hdigits hhour)).trans ?_
  refine (bind_of_eq_some (hcolon _)).trans <| (bind_of_eq_some (hdigits hminute)).trans ?_
  refine (bind_of_eq_some (hcolon _)).trans <| (bind_of_eq_some (hdigits hsecond)).trans ?_
  refine (bind_of_eq_some hfraction).trans <| (bind_of_eq_some hutc).trans ?_
  rfl

theorem readChars_stampChars (h : t.HasPlainYear) : readChars t.stampChars = some t := by
  obtain ⟨hmonth, hday, hhour, hminute, hsecond, hnano⟩ := parts_lt t
  have hyear : (Date.ofDays (t.second / 86400)).year.toNat < 10000 := by
    have := h.2
    omega
  have hcast : ((Date.ofDays (t.second / 86400)).year.toNat : Int) =
      (Date.ofDays (t.second / 86400)).year := Int.toNat_of_nonneg h.1
  have hread := readChars_parts hyear hmonth hday hhour hminute hsecond hnano
  rw [hcast, ofParts?_parts h] at hread
  have hplain : yearText (Date.ofDays (t.second / 86400)).year =
      padded 4 (Date.ofDays (t.second / 86400)).year.toNat := if_pos h
  rw [stampChars, hplain, ← hread]
  simp only [List.append_assoc, List.cons_append]

/-- The written form of an instant of a year of four digits is read as that instant again. -/
theorem read?_stamp (h : t.HasPlainYear) : read? t.stamp = some t := by
  rw [read?, stamp, String.toList_ofList, readChars_stampChars h]

end Instant

end Steward.Time
