import Mathlib.Data.List.DropRight
import Steward.Text.Blank
import Steward.Text.Classes
import Steward.Text.Decimal

/-!
# Trimmed texts

* `trimEndBy_eq_iff`, `trimStart_eq_iff`: what is left of a text without the characters at its end
  or its start.
* `isBlank_eq_false_of_isWord`, `isBlank_eq_false_of_isDecimal`: no letter and no digit is blank.
* `trim_trim`: a trimmed text has no blank character at either end.
* `length_trim_le`: trimming adds nothing.
* `trim_eq_nil_iff`: nothing is left of blank texts only.
* `Framed.trim_append`: of a text in a frame of other characters only what stands before it is cut
  off. `Framed.trim_eq_iff`: the texts of which it is what is left.
* `Spells.framed`: numerals are such texts.
-/

namespace Steward.Text

variable {s : List Char}

/-- The characters at the end are cut off, and nothing else. -/
theorem trimEndBy_eq_iff {p : Char → Bool} {s text : List Char} :
    trimEndBy p s = text ↔
      (∃ ends, s = text ++ ends ∧ ∀ c ∈ ends, p c = true) ∧
        ∀ c, text.getLast? = some c → p c = false := by
  constructor
  · intro h
    subst h
    refine ⟨exists_trimEndBy_append p s, ?_⟩
    intro c hc
    rw [trimEndBy, List.getLast?_reverse] at hc
    have hhead := List.head?_dropWhile_not p s.reverse
    rw [hc] at hhead
    simpa using hhead
  · intro h
    obtain ⟨⟨ends, rfl, hends⟩, hlast⟩ := h
    have hends' : ∀ c ∈ ends.reverse, p c = true := by simpa using hends
    have hkeep : text.reverse.dropWhile p = text.reverse := by
      cases htext : text.reverse with
      | nil => rfl
      | cons c rest =>
        have hc : p c = false := by
          apply hlast
          rw [← List.head?_reverse, htext]
          rfl
        rw [List.dropWhile_cons_of_neg (by simp [hc])]
    rw [trimEndBy, List.reverse_append, List.dropWhile_append_of_pos hends', hkeep,
      List.reverse_reverse]

/-- The blank characters at the start are cut off, and nothing else. -/
theorem trimStart_eq_iff {s text : List Char} :
    trimStart s = text ↔
      (∃ lead, s = lead ++ text ∧ ∀ c ∈ lead, isBlank c = true) ∧
        ∀ c, text.head? = some c → isBlank c = false := by
  constructor
  · intro h
    subst h
    refine ⟨⟨s.takeWhile isBlank, List.takeWhile_append_dropWhile.symm, fun c hc => ?_⟩,
      fun c hc => ?_⟩
    · exact List.all_eq_true.1 List.all_takeWhile c hc
    · have hhead := List.head?_dropWhile_not isBlank s
      rw [trimStart, trimStartBy] at hc
      rw [hc] at hhead
      simpa using hhead
  · rintro ⟨⟨lead, rfl, hlead⟩, hhead⟩
    rw [trimStart, trimStartBy, List.dropWhile_append_of_pos hlead]
    cases text with
    | nil => rfl
    | cons c rest => rw [List.dropWhile_cons_of_neg (by simp [hhead c rfl])]

/-- The code points of the blank characters. -/
def blankCodes : List Nat :=
  [9, 10, 11, 12, 13, 32, 0x85, 0xA0, 0x1680, 0x2000, 0x2001, 0x2002, 0x2003, 0x2004, 0x2005,
    0x2006, 0x2007, 0x2008, 0x2009, 0x200A, 0x2028, 0x2029, 0x202F, 0x205F, 0x3000]

theorem toNat_mem_blankCodes {c : Char} (h : isBlank c = true) : c.toNat ∈ blankCodes := by
  simp [isBlank] at h
  simp [blankCodes]
  omega

/-- No character of a class is blank if the class has none of the blank code points. -/
theorem isBlank_eq_false_of_blankCodes {p : Char → Bool} {c : Char}
    (hp : ∀ n ∈ blankCodes, p (Char.ofNat n) = false) (h : p c = true) : isBlank c = false := by
  by_contra hblank
  have hother := hp _ (toNat_mem_blankCodes (Bool.of_not_eq_false hblank))
  rw [Char.ofNat_toNat, h] at hother
  cases hother

/-- No letter, digit or other character of a word is blank. -/
theorem isBlank_eq_false_of_isWord {c : Char} (h : isWord c = true) : isBlank c = false :=
  isBlank_eq_false_of_blankCodes (by decide +kernel) h

theorem isBlank_eq_false_of_isDecimal {c : Char} (h : isDecimal c = true) : isBlank c = false :=
  isBlank_eq_false_of_blankCodes (by decide +kernel) h

theorem trim_eq (s : List Char) : trim s = (s.dropWhile isBlank).rdropWhile isBlank := rfl

theorem trim_isPrefix_dropWhile (s : List Char) : trim s <+: s.dropWhile isBlank :=
  List.rdropWhile_prefix isBlank _

theorem dropWhile_trim (s : List Char) : (trim s).dropWhile isBlank = trim s := by
  obtain ⟨rest, hrest⟩ := trim_isPrefix_dropWhile s
  cases ht : trim s with
  | nil => rfl
  | cons c more =>
    -- What is left starts like the text without its blank start.
    have hhead : isBlank c = false := by
      have hdrop := List.head?_dropWhile_not isBlank s
      rw [← hrest, ht] at hdrop
      simpa using hdrop
    rw [List.dropWhile_cons_of_neg (by simp [hhead])]

theorem trim_trim (s : List Char) : trim (trim s) = trim s := by
  rw [trim_eq, dropWhile_trim, trim_eq, List.rdropWhile_idempotent]

theorem length_trim_le (s : List Char) : (trim s).length ≤ s.length :=
  Nat.le_trans (trim_isPrefix_dropWhile s).length_le (List.dropWhile_sublist isBlank).length_le

theorem trim_eq_nil_iff : trim s = [] ↔ s.all isBlank = true := by
  rw [trim_eq, List.rdropWhile_eq_nil_iff, List.all_eq_true]
  constructor
  · intro h
    cases hd : s.dropWhile isBlank with
    | nil => exact List.dropWhile_eq_nil_iff.1 hd
    | cons c more =>
      have hhead := List.head?_dropWhile_not isBlank s
      have hc := h c (by rw [hd]; exact List.mem_cons_self)
      simp [hd, hc] at hhead
  · intro h c hc
    exact h c ((List.dropWhile_sublist isBlank).subset hc)

/-- The text starts and ends with characters that are not blank. -/
structure Framed (s : List Char) : Prop where
  head : ∃ c, s.head? = some c ∧ isBlank c = false
  last : ∃ c, s.getLast? = some c ∧ isBlank c = false

/-- Blank characters before a framed text are cut off, and nothing else. -/
theorem Framed.trim_append (h : Framed s) {indent : List Char}
    (hindent : ∀ c ∈ indent, isBlank c = true) : trim (indent ++ s) = s := by
  obtain ⟨c, hc, hcblank⟩ := h.head
  obtain ⟨d, hd, hdblank⟩ := h.last
  have hstart : (indent ++ s).dropWhile isBlank = s := by
    rw [List.dropWhile_append_of_pos hindent]
    cases s with
    | nil => cases hc
    | cons b s =>
      obtain rfl : b = c := Option.some.inj hc
      rw [List.dropWhile_cons_of_neg (by simp [hcblank])]
  obtain ⟨s', rfl⟩ := List.getLast?_eq_some_iff.1 hd
  rw [trim_eq, hstart, List.rdropWhile_concat_neg _ _ _ (by simp [hdblank])]

theorem Framed.trim_eq (h : Framed s) : trim s = s := by
  have hnone : ∀ c ∈ ([] : List Char), isBlank c = true := by simp
  exact h.trim_append hnone

/-- What is left of a text is the framed text exactly where blank characters stand around it. -/
theorem Framed.trim_eq_iff {text : List Char} (h : Framed s) :
    trim text = s ↔ ∃ before after, text = before ++ s ++ after ∧
      (∀ c ∈ before, isBlank c = true) ∧ ∀ c ∈ after, isBlank c = true := by
  obtain ⟨first, hfirst, hfirst'⟩ := h.head
  obtain ⟨last, hlast, hlast'⟩ := h.last
  have hends : ∀ c, s.getLast? = some c → isBlank c = false := by
    intro c hc
    obtain rfl := Option.some.inj (hlast.symm.trans hc)
    exact hlast'
  have hstarts : ∀ (rest : List Char) (c : Char),
      (s ++ rest).head? = some c → isBlank c = false := by
    intro rest c hc
    rw [List.head?_append, hfirst, Option.some_or] at hc
    obtain rfl := Option.some.inj hc
    exact hfirst'
  rw [trim, trimEnd, trimEndBy_eq_iff]
  refine ⟨fun h => ?_, fun h => ?_⟩
  · obtain ⟨⟨after, hstart, hafter⟩, -⟩ := h
    obtain ⟨⟨before, rfl, hbefore⟩, -⟩ := trimStart_eq_iff.1 hstart
    exact ⟨before, after, (List.append_assoc ..).symm, hbefore, hafter⟩
  · obtain ⟨before, after, rfl, hbefore, hafter⟩ := h
    have hstart : trimStart (before ++ s ++ after) = s ++ after :=
      trimStart_eq_iff.2 ⟨⟨before, List.append_assoc .., hbefore⟩, hstarts after⟩
    exact ⟨⟨after, hstart, hafter⟩, hends⟩

theorem Framed.cons {c : Char} (h : Framed s) (hc : isBlank c = false) : Framed (c :: s) := by
  obtain ⟨last, hlast, hlast'⟩ := h.last
  exact ⟨⟨c, rfl, hc⟩, last, by rw [List.getLast?_cons, hlast, Option.getD_some], hlast'⟩

theorem framed_of_forall (hne : s ≠ []) (h : ∀ c ∈ s, isBlank c = false) : Framed s :=
  ⟨⟨s.head hne, List.head?_eq_some_head hne, h _ (List.head_mem hne)⟩,
    s.getLast hne, List.getLast?_eq_some_getLast hne, h _ (List.getLast_mem hne)⟩

theorem Spells.framed {n : Int} (h : Spells s n) : Framed s := by
  have hnumeral : ∀ {digits : List Char} {n : Nat}, IsNumeral digits n → Framed digits := by
    intro digits n h
    exact framed_of_forall h.nonempty fun c hc =>
      isBlank_eq_false_of_isDecimal (isDecimal_of_isDigit (h.ascii c hc))
  cases h with
  | plain h => exact hnumeral h
  | plus h => exact (hnumeral h).cons (by decide)
  | minus h => exact (hnumeral h).cons (by decide)

theorem trimmed_trimmed (s : String) : trimmed (trimmed s) = trimmed s := by
  simp [trimmed, trim_trim]

theorem length_trimmed_le (s : String) : (trimmed s).length ≤ s.length := by
  rw [trimmed, String.length_ofList, ← String.length_toList]
  exact length_trim_le s.toList

theorem length_trimmed_pos {s : String} (h : blank s = false) : 1 ≤ (trimmed s).length := by
  have hne : trim s.toList ≠ [] := fun hnil => by
    rw [blank, trim_eq_nil_iff.1 hnil] at h
    cases h
  simpa [trimmed, Nat.one_le_iff_ne_zero] using hne

end Steward.Text
