import Steward.Text.Cut

/-!
# Offsets in bytes

Where a source may be cut between its bytes, and which characters stand between two such places.

* `isOffset_iff`: a source may be cut where it may be cut between characters.
* `extract_eq`: the bytes between two offsets are those of the characters there.
* `exists_mid`: of two cuts the later one cuts what the other leaves.
* `not_splits`: a start of a source does not end between the units of a character.
* `isOffset_of_byteOffset?`: offsets that are found from UTF-16 are such places.
-/

namespace Steward.Text

variable {source : String} {n k : Nat} {before mid after : List Char}

/-- A character of the source starts at the offset, or the source ends there. -/
def IsOffset (source : String) (n : Nat) : Prop := String.Pos.Raw.IsValid source ⟨n⟩

instance (source : String) (n : Nat) : Decidable (IsOffset source n) :=
  decidable_of_iff _ String.Pos.Raw.isValid_eq_true_iff

/-- The units of a string in UTF-16. -/
def length16 (s : String) : Nat := width units16 s.toList

/-- The offset lies between the two UTF-16 units of one character. -/
def Splits (source : String) (n : Nat) : Prop :=
  ∃ before c after, source.toList = before ++ c :: after ∧ units16 c = 2 ∧
    n = width units16 before + 1

theorem width_units8 (s : List Char) : width units8 s = (String.ofList s).utf8ByteSize := by
  induction s with
  | nil => rfl
  | cons c s ih =>
    rw [width_cons, ih, String.ofList_cons, String.utf8ByteSize_append,
      String.utf8ByteSize_singleton]
    rfl

theorem isOffset_iff : IsOffset source n ↔
    ∃ before after, source.toList = before ++ after ∧ width units8 before = n := by
  unfold IsOffset
  rw [String.Pos.Raw.isValid_iff_exists_append]
  constructor
  · rintro ⟨s, s', rfl, hn⟩
    refine ⟨s.toList, s'.toList, String.toList_append, ?_⟩
    rw [width_units8, String.ofList_toList]
    exact (congrArg String.Pos.Raw.byteIdx hn).symm
  · rintro ⟨before, after, hs, rfl⟩
    refine ⟨String.ofList before, String.ofList after, ?_, ?_⟩
    · rw [← String.ofList_append, ← hs, String.ofList_toList]
    · rw [width_units8]
      rfl

theorem extract_eq (h : source.toList = before ++ mid ++ after) :
    source.toByteArray.extract (width units8 before) (width units8 before + width units8 mid) =
      (String.ofList mid).toByteArray := by
  have hsource : source = String.ofList before ++ (String.ofList mid ++ String.ofList after) := by
    rw [← String.ofList_append, ← String.ofList_append, ← List.append_assoc, ← h,
      String.ofList_toList]
  rw [hsource, width_units8, width_units8, String.toByteArray_append, String.toByteArray_append,
    ← String.size_toByteArray, ← String.size_toByteArray]
  have hskip := @ByteArray.extract_append_size_add (String.ofList before).toByteArray
    ((String.ofList mid).toByteArray ++ (String.ofList after).toByteArray) 0
    (String.ofList mid).toByteArray.size
  rw [Nat.add_zero] at hskip
  rw [hskip]
  exact ByteArray.extract_append_eq_left rfl

theorem exists_mid {before' after' : List Char} (h : before ++ after = before' ++ after')
    (hle : width units8 before ≤ width units8 before') :
    ∃ mid, before' = before ++ mid ∧ after = mid ++ after' := by
  rcases List.append_eq_append_iff.1 h with ⟨mid, hbefore, hafter⟩ | ⟨mid, hbefore, hafter⟩
  · exact ⟨mid, hbefore, hafter⟩
  · cases mid with
    | nil => exact ⟨[], by simpa using hbefore.symm, by simpa using hafter.symm⟩
    | cons c mid =>
      have hpos := units8_pos c
      rw [hbefore, width_append, width_cons] at hle
      omega

/-- Only one start of a text is of a given width. -/
theorem eq_of_width_eq {units : Char → Nat} (h : ∀ c, 0 < units c) {before' after' : List Char}
    (hs : before ++ after = before' ++ after') (hw : width units before = width units before') :
    before = before' ∧ after = after' := by
  have hcut : cutAt? units (width units before') (before ++ after) = some (before, after) :=
    (cutAt?_eq_some_iff h).2 ⟨rfl, hw⟩
  have hcut' : cutAt? units (width units before') (before ++ after) = some (before', after') :=
    (cutAt?_eq_some_iff h).2 ⟨hs, rfl⟩
  simpa using hcut.symm.trans hcut'

/-- No start of a text ends between the units of a character. -/
theorem not_splits (h : source.toList = before ++ after) :
    ¬ Splits source (width units16 before) := by
  intro hsplits
  obtain ⟨start, c, rest, hs, hc, hn⟩ := hsplits
  rw [h] at hs
  rcases List.append_eq_append_iff.1 hs with ⟨more, hstart, -⟩ | ⟨more, hbefore, hrest⟩
  · rw [hstart, width_append] at hn
    omega
  · cases more with
    | nil =>
      rw [hbefore, List.append_nil] at hn
      omega
    | cons d more =>
      obtain ⟨rfl, -⟩ := List.cons.inj hrest
      rw [hbefore, width_append, width_cons] at hn
      omega

theorem isOffset_of_byteOffset? (h : byteOffset? n source.toList = some k) : IsOffset source k := by
  obtain ⟨before, after, hs, -, hk⟩ := byteOffset?_eq_some_iff.1 h
  exact isOffset_iff.2 ⟨before, after, hs, hk⟩

end Steward.Text
