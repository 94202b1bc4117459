import Mathlib.Tactic.Common
import Steward.Proofs.Text.Trim
import Steward.Proofs.Time.Stamp
import Steward.Snowflake

/-!
# Written identifiers

An identifier is written as the decimal of its value, whatever its sign, but only a positive one is
read from a decimal.

* `Text.ofSigned?_intNumeral`: a written integer reads back.
* `Text.ofSigned?_trim_eq_some_iff`: what is read are the numerals that stand between blank
  characters.
* `Snowflake.read_eq_ok_iff`, `Snowflake.read_eq_notPositive_iff`, `Snowflake.read_eq_format_iff`:
  which texts are identifiers, and why the others are not.
* `Snowflake.read_text`: a written identifier reads back where it is positive, and is refused
  otherwise.
-/

namespace Steward

namespace Text

theorem not_isBlank_of_mem_intNumeral {n : Int} {c : Char} (h : c ∈ intNumeral n) :
    isBlank c = false := by
  have hnumeral : ∀ m : Nat, c ∈ numeral m → isBlank c = false := fun m hc =>
    Time.not_isBlank_of_isDigit (List.all_eq_true.1 (all_isDigit_numeral m) c hc)
  unfold intNumeral at h
  split at h
  · obtain rfl | h := List.mem_cons.1 h
    · decide
    · exact hnumeral _ h
  · exact hnumeral _ h

@[simp] theorem trim_intNumeral (n : Int) : trim (intNumeral n) = intNumeral n := by
  have hstart : trimStart (intNumeral n) = intNumeral n := by
    cases hn : intNumeral n with
    | nil => rfl
    | cons c rest =>
      have hc : c ∈ intNumeral n := by rw [hn]; exact .head _
      exact Time.trimStart_cons (not_isBlank_of_mem_intNumeral hc) _
  rw [trim, hstart]
  exact trimEndBy_eq_self fun c hc => not_isBlank_of_mem_intNumeral hc

@[simp] theorem ofSigned?_intNumeral (n : Int) : ofSigned? (intNumeral n) = some n := by
  unfold intNumeral
  split
  · next hneg =>
    rw [ofSigned?, ofNumeral?_numeral]
    show some (-(n.natAbs : Int)) = some n
    congr 1
    omega
  · next hnonneg =>
    have hdigit : ∀ c ∈ numeral n.natAbs, c.isDigit = true :=
      List.all_eq_true.1 (all_isDigit_numeral _)
    unfold ofSigned?
    split
    · next hs => exact absurd (hdigit '-' (by rw [hs]; exact .head _)) (by decide)
    · next hs => exact absurd (hdigit '+' (by rw [hs]; exact .head _)) (by decide)
    · rw [ofNumeral?_numeral]
      show some (n.natAbs : Int) = some n
      congr 1
      omega

/-- The text stands in a longer one with nothing but blank characters around it. -/
def Wraps (s text : List Char) : Prop :=
  ∃ before after, s = before ++ text ++ after ∧
    (∀ c ∈ before, isBlank c = true) ∧ ∀ c ∈ after, isBlank c = true

theorem ofSigned?_trim_eq_some_iff {s : List Char} {n : Int} :
    ofSigned? (trim s) = some n ↔ ∃ text, Wraps s text ∧ Spells text n := by
  rw [ofSigned?_eq_some_iff]
  constructor
  · intro h
    exact ⟨trim s, h.framed.trim_eq_iff.1 rfl, h⟩
  · rintro ⟨text, hwraps, h⟩
    rwa [h.framed.trim_eq_iff.2 hwraps]

/-- A positive integer is spelled without a minus sign. -/
theorem spells_iff_of_pos {text : List Char} {n : Nat} (h : 0 < n) :
    Spells text n ↔ ∃ digits, (text = digits ∨ text = '+' :: digits) ∧ IsNumeral digits n := by
  constructor
  · intro hs
    generalize hm : (n : Int) = m at hs
    cases hs with
    | plain hd =>
      obtain rfl := Int.ofNat.inj hm
      exact ⟨_, .inl rfl, hd⟩
    | plus hd =>
      obtain rfl := Int.ofNat.inj hm
      exact ⟨_, .inr rfl, hd⟩
    | minus hd => omega
  · rintro ⟨digits, rfl | rfl, hd⟩
    · exact .plain hd
    · exact .plus hd

end Text

namespace Snowflake

variable {s : String} {id : Snowflake}

theorem inRange_iff {n : Int} : inRange n = true ↔ -Word.bound64 ≤ n ∧ n < Word.bound64 := by
  simp [inRange]

/-- The string spells an integer of 64 bits between blank characters. -/
def Denotes (s : String) (n : Int) : Prop :=
  (∃ text, Text.Wraps s.toList text ∧ Text.Spells text n) ∧
    -Word.bound64 ≤ n ∧ n < Word.bound64

theorem filter_ofSigned?_eq_some_iff {n : Int} :
    (Text.ofSigned? (Text.trim s.toList)).filter inRange = some n ↔ Denotes s n := by
  rw [Option.filter_eq_some_iff, Text.ofSigned?_trim_eq_some_iff, inRange_iff]
  rfl

theorem read_eq_ok_iff : read s = .ok id ↔ Denotes s id.value ∧ 0 < id.value := by
  rw [← filter_ofSigned?_eq_some_iff, read, readChars]
  cases (Text.ofSigned? (Text.trim s.toList)).filter inRange with
  | none => simp
  | some n =>
    by_cases hn : n ≤ 0
    · have hnot : some n = some id.value → ¬ 0 < id.value := by
        rintro ⟨⟩
        omega
      simpa [hn] using hnot
    · have hpos : some n = some id.value → 0 < id.value := by
        rintro ⟨⟩
        omega
      have hid : (⟨n⟩ : Snowflake) = id ↔ n = id.value := by
        cases id
        simp
      simpa [hn, hid] using hpos

/-- What is read as an identifier is digits, with or without a plus sign. -/
theorem read_eq_ok_iff_digits : read s = .ok id ↔ ∃ text digits n, Text.Wraps s.toList text ∧
    (text = digits ∨ text = '+' :: digits) ∧ Text.IsNumeral digits n ∧
    1 ≤ n ∧ (n : Int) < Word.bound64 ∧ id = ⟨n⟩ := by
  rw [read_eq_ok_iff]
  constructor
  · obtain ⟨value⟩ := id
    rintro ⟨⟨⟨text, hwraps, hspells⟩, -, hlt⟩, hpos⟩
    obtain ⟨n, rfl⟩ := Int.eq_ofNat_of_zero_le (Int.le_of_lt hpos)
    obtain ⟨digits, htext, hdigits⟩ :=
      (Text.spells_iff_of_pos (Int.natCast_pos.1 hpos)).1 hspells
    exact ⟨text, digits, n, hwraps, htext, hdigits, Int.natCast_pos.1 hpos, hlt, rfl⟩
  · rintro ⟨text, digits, n, hwraps, htext, hdigits, hpos, hlt, rfl⟩
    have hspells := (Text.spells_iff_of_pos hpos).2 ⟨digits, htext, hdigits⟩
    have hbounds : -Word.bound64 ≤ (n : Int) ∧ (n : Int) < Word.bound64 := by omega
    exact ⟨⟨⟨text, hwraps, hspells⟩, hbounds⟩, Int.natCast_pos.2 hpos⟩

theorem read_eq_notPositive_iff : read s = .error .notPositive ↔ ∃ n, Denotes s n ∧ n ≤ 0 := by
  simp only [← filter_ofSigned?_eq_some_iff, read, readChars]
  cases (Text.ofSigned? (Text.trim s.toList)).filter inRange with
  | none => simp
  | some n => by_cases hn : n ≤ 0 <;> simp [hn]

theorem read_eq_format_iff : read s = .error .format ↔ ¬ ∃ n, Denotes s n := by
  simp only [← filter_ofSigned?_eq_some_iff, read, readChars]
  cases (Text.ofSigned? (Text.trim s.toList)).filter inRange with
  | none => simp
  | some n => by_cases hn : n ≤ 0 <;> simp [hn]

end Snowflake

/-- A written identifier is read back exactly where it is positive. -/
theorem Snowflake.read_text {id : Snowflake} (h : inRange id.value = true) :
    read id.text = if 0 < id.value then .ok id else .error .notPositive := by
  rw [read, text, Text.decimalInt, String.toList_ofList, readChars, Text.trim_intNumeral,
    Text.ofSigned?_intNumeral, Option.filter_some, if_pos h]
  by_cases hpos : 0 < id.value
  · rw [if_pos hpos]
    exact if_neg (by omega)
  · rw [if_neg hpos]
    exact if_pos (by omega)

end Steward
