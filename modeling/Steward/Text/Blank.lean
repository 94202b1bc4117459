/-!
# Blank characters

The characters of the Unicode property `White_Space`, and cutting them off either end of a text.

* `isBlank_of_isWhitespace`: every blank character of core is blank here.
* `trimEndBy_eq_self`: a text without such characters stays as it is.
* `exists_trimEndBy_append`: what is cut off at the end is such characters.
-/

namespace Steward.Text

/-- The characters of the Unicode property `White_Space`. -/
def isBlank (c : Char) : Bool :=
  let n := c.toNat
  (9 ≤ n && n ≤ 13) || n == 32 || n == 0x85 || n == 0xA0 || n == 0x1680 ||
    (0x2000 ≤ n && n ≤ 0x200A) || n == 0x2028 || n == 0x2029 || n == 0x202F || n == 0x205F ||
    n == 0x3000

theorem isBlank_of_isWhitespace {c : Char} (h : c.isWhitespace = true) : isBlank c = true := by
  simp only [Char.isWhitespace, Bool.or_eq_true, decide_eq_true_eq] at h
  rcases h with ((rfl | rfl) | rfl) | rfl <;> decide

/-- The text without the characters of `p` at its start. -/
def trimStartBy (p : Char → Bool) (s : List Char) : List Char := s.dropWhile p

/-- The text without the characters of `p` at its end. -/
def trimEndBy (p : Char → Bool) (s : List Char) : List Char := (s.reverse.dropWhile p).reverse

theorem trimEndBy_eq_self {p : Char → Bool} {s : List Char} (h : ∀ c ∈ s, p c = false) :
    trimEndBy p s = s := by
  have hkeep : s.reverse.dropWhile p = s.reverse := by
    cases hs : s.reverse with
    | nil => rfl
    | cons c rest =>
      have hc : c ∈ s := List.mem_reverse.1 (by rw [hs]; exact List.mem_cons_self)
      rw [List.dropWhile_cons, h c hc, if_neg Bool.false_ne_true]
  rw [trimEndBy, hkeep, List.reverse_reverse]

/-- What is cut off at the end are characters of `p`. -/
theorem exists_trimEndBy_append (p : Char → Bool) (s : List Char) :
    ∃ rest, s = trimEndBy p s ++ rest ∧ ∀ c ∈ rest, p c = true := by
  refine ⟨(s.reverse.takeWhile p).reverse, ?_, fun c hc => ?_⟩
  · rw [trimEndBy, ← List.reverse_append, List.takeWhile_append_dropWhile, List.reverse_reverse]
  · exact List.all_eq_true.1 List.all_takeWhile c (List.mem_reverse.1 hc)

/-- The text without blank characters at its start. -/
def trimStart (s : List Char) : List Char := trimStartBy isBlank s

/-- The text without blank characters at its end. -/
def trimEnd (s : List Char) : List Char := trimEndBy isBlank s

/-- The text without blank characters at either end. -/
def trim (s : List Char) : List Char := trimEnd (trimStart s)

/-- The string without blank characters at either end. -/
def trimmed (s : String) : String := String.ofList (trim s.toList)

/-- Whether a string holds nothing but blank characters. -/
def blank (s : String) : Bool := s.toList.all isBlank

end Steward.Text
