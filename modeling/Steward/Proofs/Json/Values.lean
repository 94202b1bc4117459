import Steward.Proofs.Json.Record
import Steward.Proofs.Snowflake

/-!
# Reading written values

How the decoders of single values take what is written for such a value, and what they say of any
value that they take.

* `Decoder.snowflake_text`: of identifiers only the positive ones are taken back.
* `Decoder.instant_text`: instants are, of years of four digits.
* `Snowflake.read_positive_decimals`: which strings and integers identifiers are read from.
-/

namespace Steward

/-- Whether an integer is a signed word of 32 bits. -/
def Word.IsInt32 (n : Int) : Prop := -bound32 ≤ n ∧ n ≤ bound32 - 1

namespace Json.Decoder

variable {α : Type} {n : Int} {v : Json} {id : Snowflake} {t : Time.Instant}

@[simp] theorem string_text (s : String) : string (.text s) = .ok s := rfl

@[simp] theorem flag_bool (b : Bool) : flag (.bool b) = .ok b := rfl

theorem int32_int (h : Word.IsInt32 n) : int32 (.int n) = .ok n := integer_eq_ok_iff.2 ⟨rfl, h⟩

theorem isInt32_of_int32 (h : int32 v = .ok n) : Word.IsInt32 n := (integer_eq_ok_iff.1 h).2

@[simp] theorem uint32_int (n : UInt32) : uint32 (.int n.toNat) = .ok n := by
  have hlt := n.toNat_lt
  have hint : integer 0 ((Word.count32 : Nat) - 1) (.int n.toNat) = .ok (n.toNat : Int) :=
    integer_eq_ok_iff.2 ⟨rfl, by omega, by show (n.toNat : Int) ≤ 4294967296 - 1; omega⟩
  rw [uint32, unsigned, hint]
  simp [Except.map]

theorem snowflake_text (h : Snowflake.inRange id.value = true) :
    snowflake (.text id.text) =
      if 0 < id.value then .ok id else .error (.identifier .notPositive) := by
  rw [snowflake, Snowflake.read_text h]
  by_cases hpos : 0 < id.value
  · rw [if_pos hpos, if_pos hpos]
  · rw [if_neg hpos, if_neg hpos]

theorem snowflake_text_eq_ok_iff {a : Snowflake} (h : Snowflake.inRange id.value = true) :
    snowflake (.text id.text) = .ok a ↔ 0 < id.value ∧ id = a := by
  rw [snowflake_text h]
  split
  · next hpos => simp [hpos]
  · next hpos => simp [hpos]

theorem inRange_of_read {s : String} (h : Snowflake.read s = .ok id) :
    Snowflake.inRange id.value = true :=
  Snowflake.inRange_iff.2 (Snowflake.read_eq_ok_iff.1 h).1.2

theorem inRange_of_snowflake (h : snowflake v = .ok id) : Snowflake.inRange id.value = true := by
  unfold snowflake at h
  split at h
  · split at h
    · next hread =>
      cases h
      exact inRange_of_read hread
    · cases h
  · split at h
    · next hrange =>
      cases h
      exact hrange
    · cases h
  · cases h

theorem instant_text (h : t.HasPlainYear) : instant (.text t.stamp) = .ok t := by
  rw [instant, text?, Option.bind_some, Time.Instant.read?_stamp h]
  rfl

@[simp] theorem name_text (read? : String → Option α) (s : String) :
    name read? (.text s) = orForm (read? s) := rfl

@[simp] theorem option_null (d : Decoder α) : d.option .null = .ok none := rfl

@[simp] theorem option_text (d : Decoder α) (s : String) :
    d.option (.text s) = (d (.text s)).map some := rfl

@[simp] theorem option_int (d : Decoder α) (n : Int) : d.option (.int n) = (d (.int n)).map some :=
  rfl

/-- A value that may be missing and is found has been read by its decoder. -/
theorem eq_ok_of_option {d : Decoder α} {a : α} (h : d.option v = .ok (some a)) : d v = .ok a := by
  unfold option at h
  split at h
  · cases h
  · cases hd : d v with
    | error e => rw [hd] at h; cases h
    | ok b => rw [hd] at h; cases h; rfl

/-- An instant that may be missing is written as itself or `null`. -/
theorem option_instant {t : Option Time.Instant} (h : ∀ u ∈ t, u.HasPlainYear) :
    instant.option (.ofOption (.text ·.stamp) t) = .ok t := by
  cases t with
  | none => rfl
  | some u =>
    rw [ofOption, option_text, instant_text (h u rfl)]
    rfl

theorem option_snowflake_eq_ok_iff {id a : Option Snowflake}
    (h : ∀ x ∈ id, Snowflake.inRange x.value = true) :
    snowflake.option (.ofOption (.text ·.text) id) = .ok a ↔
      (∀ x ∈ id, 0 < x.value) ∧ id = a := by
  cases id with
  | none => simp [ofOption]
  | some x =>
    rw [ofOption, option_text, snowflake_text (h x rfl)]
    split
    · next hpos => simp [hpos, Except.map]
    · next hpos => simp [hpos, Except.map]

end Json.Decoder

/-- An identifier is read from the decimal of a positive integer of 64 bits with or without a plus
sign, between blank characters. A decimal of zero or a negative integer of 64 bits is refused as
not positive, and every other text for its form. So each positive identifier is read back from what
is written for it. From a document, a string is read in this way, and an integer is taken where it
has 64 bits. -/
theorem Snowflake.read_positive_decimals (s : String) :
    (∀ id, read s = .ok id ↔ ∃ text digits n, Text.Wraps s.toList text ∧
      (text = digits ∨ text = '+' :: digits) ∧ Text.IsNumeral digits n ∧
      1 ≤ n ∧ (n : Int) < Word.bound64 ∧ id = ⟨n⟩) ∧
    (read s = .error .notPositive ↔ ∃ n, Denotes s n ∧ n ≤ 0) ∧
    (read s = .error .format ↔ ¬ ∃ n, Denotes s n) ∧
    (∀ id, read id.text = .ok id ↔ 0 < id.value ∧ id.value < Word.bound64) ∧
    Json.Decoder.snowflake (.text s) = (read s).mapError .identifier ∧
    ∀ n id, Json.Decoder.snowflake (.int n) = .ok id ↔
      -Word.bound64 ≤ n ∧ n < Word.bound64 ∧ id = ⟨n⟩ := by
  refine ⟨fun id => read_eq_ok_iff_digits, read_eq_notPositive_iff, read_eq_format_iff,
    fun id => ?_, ?_, fun n id => ?_⟩
  · constructor
    · intro h
      obtain ⟨⟨-, -, hlt⟩, hpos⟩ := read_eq_ok_iff.1 h
      exact ⟨hpos, hlt⟩
    · rintro ⟨hpos, hlt⟩
      rw [read_text (inRange_iff.2 ⟨by omega, hlt⟩), if_pos hpos]
  · rw [Json.Decoder.snowflake]
    cases read s <;> rfl
  · rw [Json.Decoder.snowflake, ← and_assoc, ← inRange_iff]
    cases inRange n <;> simp [eq_comm]

/-- Zeros may stand before the digits, and white space of any kind around them; a lone sign, a space
inside and an integer beyond 64 bits are no identifiers. -/
example : Snowflake.read " +007\n" = .ok ⟨7⟩ ∧ Snowflake.read "-0" = .error .notPositive ∧
    Snowflake.read "-9223372036854775808" = .error .notPositive ∧
    ∀ s ∈ ["+", "1 2", "9223372036854775808"], Snowflake.read s = .error .format := by
  decide

end Steward
