import Steward.Text.Blank
import Steward.Text.Classes
import Steward.Text.Decimal
import Steward.Text.Search
import Steward.Word

/-!
# Places in output

The written form of a place in a source file, `src/a.ts:12:5`, at the end of a text. What stands
before the two numbers is the file, whatever characters it holds.

* `cutPlace?_append`: a written place is read back.
* `cutPlace?_eq_some_iff`: and nothing else is read as a place.
-/

namespace Steward.Output

open Text

/-- A place in a source file. -/
structure Place where
  file : String
  line : UInt32
  column : UInt32
deriving DecidableEq, Repr

/-- The number of 32 bits that decimal digits denote; 1 where they denote none. -/
def position (digits : List Char) : UInt32 :=
  UInt32.ofNat (((ofNumeral? digits).filter (· < Word.count32)).getD 1)

/-- The nonempty run of decimal digits at the end of a text behind `mark`, with what stands before
the mark. -/
def cutNumber? (mark : Char) (s : List Char) : Option (List Char × List Char) :=
  let r := s.reverse
  let digits := (r.takeWhile isDecimal).reverse
  match r.dropWhile isDecimal with
  | c :: before => if c = mark ∧ digits ≠ [] then some (before.reverse, digits) else none
  | [] => none

/-- The file and the digits of line and column of the place at the end of a text. -/
def cutPlace? (s : List Char) : Option (List Char × List Char × List Char) := do
  let (s, column) ← cutNumber? ':' s
  let (file, line) ← cutNumber? ':' s
  if file.isEmpty then none else return (file, line, column)

/-- The place of a file and digits of line and column. -/
def Place.of (file line column : List Char) : Place :=
  ⟨String.ofList file, position line, position column⟩

theorem cutNumber?_append {mark : Char} (before : List Char) {digits : List Char}
    (hm : isDecimal mark = false) (hd : digits ≠ []) (h : ∀ c ∈ digits, isDecimal c = true) :
    cutNumber? mark (before ++ mark :: digits) = some (before, digits) := by
  have hr : ∀ c ∈ digits.reverse, isDecimal c = true := by simpa using h
  have ht : (digits.reverse ++ mark :: before.reverse).takeWhile isDecimal = digits.reverse := by
    rw [List.takeWhile_append_of_pos hr]; simp [hm]
  have hdr : (digits.reverse ++ mark :: before.reverse).dropWhile isDecimal =
      mark :: before.reverse := by
    rw [List.dropWhile_append_of_pos hr]; simp [hm]
  simp [cutNumber?, ht, hdr, hd]

theorem cutNumber?_eq_some_iff {mark : Char} (hm : isDecimal mark = false)
    {s before digits : List Char} :
    cutNumber? mark s = some (before, digits) ↔
      s = before ++ mark :: digits ∧ digits ≠ [] ∧ ∀ c ∈ digits, isDecimal c = true := by
  constructor
  · intro h
    have hsplit : s.reverse = s.reverse.takeWhile isDecimal ++ s.reverse.dropWhile isDecimal :=
      List.takeWhile_append_dropWhile.symm
    simp only [cutNumber?] at h
    cases hd : s.reverse.dropWhile isDecimal with
    | nil => simp [hd] at h
    | cons c rest =>
      simp only [hd, Option.ite_none_right_eq_some, Option.some.injEq, Prod.mk.injEq] at h
      obtain ⟨⟨rfl, hne⟩, rfl, rfl⟩ := h
      refine ⟨?_, hne, fun d hd' => ?_⟩
      · rw [hd] at hsplit
        have := congrArg List.reverse hsplit
        simpa using this
      · exact List.all_eq_true.1 List.all_takeWhile d (List.mem_reverse.1 hd')
  · rintro ⟨rfl, hd, hdigits⟩
    exact cutNumber?_append before hm hd hdigits

theorem cutPlace?_append {file line column : List Char} (hf : file ≠ []) (hl : line ≠ [])
    (hc : column ≠ []) (hline : ∀ c ∈ line, isDecimal c = true)
    (hcolumn : ∀ c ∈ column, isDecimal c = true) :
    cutPlace? (file ++ ':' :: line ++ ':' :: column) = some (file, line, column) := by
  have hm : isDecimal ':' = false := by decide
  unfold cutPlace?
  rw [cutNumber?_append _ hm hc hcolumn]
  simp only [Option.bind_eq_bind, Option.bind_some]
  rw [cutNumber?_append _ hm hl hline]
  simp [hf]

theorem cutPlace?_eq_some_iff {s file line column : List Char} :
    cutPlace? s = some (file, line, column) ↔
      s = file ++ ':' :: line ++ ':' :: column ∧ file ≠ [] ∧ line ≠ [] ∧ column ≠ [] ∧
        (∀ c ∈ line, isDecimal c = true) ∧ ∀ c ∈ column, isDecimal c = true := by
  have hm : isDecimal ':' = false := by decide
  constructor
  · intro h
    obtain ⟨⟨s', column'⟩, hcolumn, hrest⟩ := Option.bind_eq_some_iff.1 h
    obtain ⟨⟨file', line'⟩, hline, hfile⟩ := Option.bind_eq_some_iff.1 hrest
    obtain ⟨hf, hparts⟩ := Option.ite_none_left_eq_some.1 hfile
    obtain ⟨rfl, rfl, rfl⟩ : file' = file ∧ line' = line ∧ column' = column := by
      simpa using hparts
    obtain ⟨rfl, hl, hline⟩ := (cutNumber?_eq_some_iff hm).1 hline
    obtain ⟨rfl, hc, hcolumn⟩ := (cutNumber?_eq_some_iff hm).1 hcolumn
    exact ⟨rfl, by simpa using hf, hl, hc, hline, hcolumn⟩
  · rintro ⟨rfl, hf, hl, hc, hline, hcolumn⟩
    exact cutPlace?_append hf hl hc hline hcolumn

end Steward.Output
