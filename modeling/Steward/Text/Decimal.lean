/-!
# Decimal numerals

* `ofNumeral?_numeral`, `ofUnsigned?_numeral`, `ofDigitChars_padded`: a written number reads back.
* `ofUnsigned?_eq_some_iff`: what else is read as a number.
* `ofSigned?_eq_some_iff`, `ofUnsigned?_eq_some_iff_spells`: the texts that spell an integer, and
  which of them are read where no minus sign is known.
-/

namespace Steward.Text

/-- The decimal digits of a number, without leading zeros. -/
def numeral (n : Nat) : List Char := Nat.toDigits 10 n

/-- The decimal digits of an integer, after a minus sign where it is negative. -/
def intNumeral (n : Int) : List Char :=
  if n < 0 then '-' :: numeral n.natAbs else numeral n.natAbs

/-- The number that a nonempty list of ASCII digits denotes. -/
def ofNumeral? (s : List Char) : Option Nat :=
  if !s.isEmpty && s.all Char.isDigit then some (Nat.ofDigitChars 10 s 0) else none

theorem numeral_ne_nil (n : Nat) : numeral n ≠ [] := Nat.toDigits_ne_nil

theorem all_isDigit_numeral (n : Nat) : (numeral n).all Char.isDigit = true :=
  List.all_eq_true.2 fun _ h => Nat.isDigit_of_mem_toDigits (by decide) (by decide) h

@[simp] theorem ofNumeral?_numeral (n : Nat) : ofNumeral? (numeral n) = some n := by
  have h : (!(numeral n).isEmpty && (numeral n).all Char.isDigit) = true := by
    simp only [all_isDigit_numeral, Bool.and_true]
    simpa using numeral_ne_nil n
  rw [ofNumeral?, if_pos h, numeral, Nat.ofDigitChars_ten_toDigits]

/-- The numeral of a number below `10 ^ width`, filled up with zeros to `width` digits. -/
def padded (width n : Nat) : List Char :=
  List.replicate (width - (numeral n).length) '0' ++ numeral n

theorem isDigit_of_mem_padded {width n : Nat} {c : Char} (h : c ∈ padded width n) :
    c.isDigit = true := by
  obtain h | h := List.mem_append.1 h
  · rw [(List.mem_replicate.1 h).2]
    rfl
  · exact List.all_eq_true.1 (all_isDigit_numeral n) c h

/-- The zeros before a numeral count for nothing. -/
@[simp] theorem ofDigitChars_padded (width n : Nat) :
    Nat.ofDigitChars 10 (padded width n) 0 = n := by
  have hzeros : ∀ k, Nat.ofDigitChars 10 (List.replicate k '0') 0 = 0 := by
    intro k
    induction k with
    | zero => rfl
    | succ k ih => rw [List.replicate_succ, Nat.ofDigitChars_cons]; exact ih
  rw [padded, Nat.ofDigitChars_append, hzeros, numeral, Nat.ofDigitChars_ten_toDigits]

/-- The number below `bound` that an optional plus sign and a nonempty list of ASCII digits
denote. -/
def ofUnsigned? (bound : Nat) (s : List Char) : Option Nat :=
  let digits := match s with
    | '+' :: rest => rest
    | _ => s
  (ofNumeral? digits).filter (· < bound)

theorem ofUnsigned?_numeral {bound n : Nat} (h : n < bound) :
    ofUnsigned? bound (numeral n) = some n := by
  have hplus : ∀ rest, numeral n ≠ '+' :: rest := by
    intro rest hs
    have hdigit := List.all_eq_true.1 (all_isDigit_numeral n) '+' (by rw [hs]; exact .head _)
    exact absurd hdigit (by decide)
  unfold ofUnsigned?
  split
  · next rest hs => exact absurd hs (hplus rest)
  · show (ofNumeral? (numeral n)).filter (· < bound) = some n
    rw [ofNumeral?_numeral, Option.filter_some, if_pos (decide_eq_true h)]

/-- The sign stands for nothing, and only digits for a number. -/
theorem ofUnsigned?_eq_some_iff {bound n : Nat} {s : List Char} :
    ofUnsigned? bound s = some n ↔
      ∃ digits, (s = digits ∨ s = '+' :: digits) ∧ ofNumeral? digits = some n ∧ n < bound := by
  constructor
  · intro h
    unfold ofUnsigned? at h
    obtain ⟨hnumeral, hn⟩ := Option.filter_eq_some_iff.1 h
    split at hnumeral
    · next rest => exact ⟨rest, .inr rfl, hnumeral, of_decide_eq_true hn⟩
    · exact ⟨s, .inl rfl, hnumeral, of_decide_eq_true hn⟩
  · intro h
    obtain ⟨digits, hs, hnumeral, hn⟩ := h
    have hplus : ∀ rest, digits ≠ '+' :: rest := by
      intro rest hdigits
      simp [hdigits, ofNumeral?] at hnumeral
    have hfilter : (ofNumeral? digits).filter (· < bound) = some n := by
      rw [hnumeral, Option.filter_some, if_pos (decide_eq_true hn)]
    rcases hs with rfl | rfl
    · unfold ofUnsigned?
      split
      · next rest => exact absurd rfl (hplus rest)
      · exact hfilter
    · exact hfilter

/-- The integer of an optionally signed nonempty list of ASCII digits. -/
def ofSigned? (s : List Char) : Option Int :=
  match s with
  | '-' :: rest => (ofNumeral? rest).map fun n => -(n : Int)
  | '+' :: rest => (ofNumeral? rest).map fun n => (n : Int)
  | _ => (ofNumeral? s).map fun n => (n : Int)

/-! ## Spelled integers -/

/-- The list is a nonempty list of ASCII digits that denotes the number. -/
structure IsNumeral (digits : List Char) (n : Nat) : Prop where
  nonempty : digits ≠ []
  ascii : ∀ c ∈ digits, c.isDigit = true
  value : Nat.ofDigitChars 10 digits 0 = n

theorem ofNumeral?_eq_some_iff {s : List Char} {n : Nat} :
    ofNumeral? s = some n ↔ IsNumeral s n := by
  unfold ofNumeral?
  rw [Option.ite_none_right_eq_some, Option.some_inj, Bool.and_eq_true, Bool.not_eq_true',
    List.isEmpty_eq_false_iff, List.all_eq_true]
  refine ⟨fun h => ?_, fun h => ?_⟩
  · obtain ⟨⟨hne, hascii⟩, hvalue⟩ := h
    exact ⟨hne, hascii, hvalue⟩
  · exact ⟨⟨h.nonempty, h.ascii⟩, h.value⟩

theorem IsNumeral.not_mem {digits : List Char} {n : Nat} {c : Char} (h : IsNumeral digits n)
    (hc : c.isDigit = false) : c ∉ digits := by
  intro hmem
  rw [h.ascii c hmem] at hc
  cases hc

/-- The text is a numeral, with or without a sign, and stands for the integer. -/
inductive Spells : List Char → Int → Prop
  | plain {digits : List Char} {n : Nat} (h : IsNumeral digits n) : Spells digits n
  | plus {digits : List Char} {n : Nat} (h : IsNumeral digits n) : Spells ('+' :: digits) n
  | minus {digits : List Char} {n : Nat} (h : IsNumeral digits n) : Spells ('-' :: digits) (-n)

theorem ofSigned?_eq_some_iff {s : List Char} {n : Int} : ofSigned? s = some n ↔ Spells s n := by
  refine ⟨fun h => ?_, fun h => ?_⟩
  · unfold ofSigned? at h
    split at h <;>
      obtain ⟨m, hm, rfl⟩ := Option.map_eq_some_iff.1 h <;>
      obtain ⟨k, hk, hkm⟩ := Option.bind_eq_some_iff.1 hm <;>
      obtain rfl := Option.some.inj hkm
    · exact .minus (ofNumeral?_eq_some_iff.1 hk)
    · exact .plus (ofNumeral?_eq_some_iff.1 hk)
    · exact .plain (ofNumeral?_eq_some_iff.1 hk)
  · cases h with
    | plain h =>
      unfold ofSigned?
      split
      · exact absurd (.head _) (h.not_mem (c := '-') rfl)
      · exact absurd (.head _) (h.not_mem (c := '+') rfl)
      · rw [ofNumeral?_eq_some_iff.2 h]
        rfl
    | plus h =>
      rw [ofSigned?, ofNumeral?_eq_some_iff.2 h]
      rfl
    | minus h =>
      rw [ofSigned?, ofNumeral?_eq_some_iff.2 h]
      rfl

/-- Where no minus sign is known, not even zero is read with one. -/
theorem ofUnsigned?_eq_some_iff_spells {bound n : Nat} {s : List Char} :
    ofUnsigned? bound s = some n ↔ Spells s n ∧ '-' ∉ s ∧ n < bound := by
  rw [ofUnsigned?_eq_some_iff]
  refine ⟨fun h => ?_, fun h => ?_⟩
  · obtain ⟨digits, hs, hnumeral, hn⟩ := h
    have hdigits := ofNumeral?_eq_some_iff.1 hnumeral
    have hminus : '-' ∉ digits := hdigits.not_mem rfl
    rcases hs with rfl | rfl
    · exact ⟨.plain hdigits, hminus, hn⟩
    · exact ⟨.plus hdigits, by simp [hminus], hn⟩
  · obtain ⟨hs, hminus, hn⟩ := h
    generalize hm : (n : Int) = m at hs
    cases hs with
    | plain h =>
      obtain rfl := Int.ofNat.inj hm
      exact ⟨s, .inl rfl, ofNumeral?_eq_some_iff.2 h, hn⟩
    | plus h =>
      obtain rfl := Int.ofNat.inj hm
      exact ⟨_, .inr rfl, ofNumeral?_eq_some_iff.2 h, hn⟩
    | minus h => exact absurd (.head _) hminus

/-! ## Written strings -/

/-- The string of decimal digits of a number. -/
def decimal (n : Nat) : String := String.ofList (numeral n)

/-- The string of decimal digits of an integer, with its sign where it is negative. -/
def decimalInt (n : Int) : String := String.ofList (intNumeral n)

end Steward.Text
