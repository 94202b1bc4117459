import Steward.Annotation.Line

/-!
# Escapes

Replacing one character after the other writes each character of a text by itself, since no
replacement writes a character that a later one looks for. Replacing one escape after the other
reads them back: a percent sign that stands for itself is written last.

* `escape_eq_flatMap`, `escapeProperty_eq_flatMap`: texts are written character by character.
* `not_isLineEnd_of_mem_escape`, `plain_of_mem_escapeProperty`: a written text ends no line, and a
  written value no property.
* `unescape_cons`, `unescape_code`: what the five replacements make of the start of a text.
* `unescape_escape`, `unescape_escapeProperty`: what was written reads back.
* `means_iff`: whatever was written, each escape in it is read as its character.
* `unescape_eq_unescapeOnce`: one pass from the left over a text comes to the same.
-/

namespace Steward.Annotation

open Text

/-! ## Writing -/

/-- The written form of a character in a message. -/
def escapeChar (c : Char) : List Char :=
  if c = '%' then ['%', '2', '5']
  else if c = '\r' then ['%', '0', 'D']
  else if c = '\n' then ['%', '0', 'A']
  else [c]

/-- The written form of a character in the value of a property. -/
def escapePropertyChar (c : Char) : List Char :=
  if c = ':' then ['%', '3', 'A']
  else if c = ',' then ['%', '2', 'C']
  else escapeChar c

theorem escape_eq_flatMap (s : List Char) : escape s = s.flatMap escapeChar := by
  unfold escape
  rw [replaceAll_singleton, replaceAll_singleton, replaceAll_singleton, List.flatMap_assoc,
    List.flatMap_assoc]
  refine congrArg (List.flatMap · s) (funext fun c => ?_)
  unfold escapeChar
  by_cases hp : c = '%'
  · subst hp; rfl
  by_cases hr : c = '\r'
  · subst hr; rfl
  by_cases hn : c = '\n'
  · subst hn; rfl
  simp [hp, hr, hn]

theorem escapeProperty_eq_flatMap (s : List Char) :
    escapeProperty s = s.flatMap escapePropertyChar := by
  unfold escapeProperty
  rw [replaceAll_singleton, replaceAll_singleton, escape_eq_flatMap, List.flatMap_assoc,
    List.flatMap_assoc]
  refine congrArg (List.flatMap · s) (funext fun c => ?_)
  unfold escapePropertyChar escapeChar
  by_cases hp : c = '%'
  · subst hp; rfl
  by_cases hr : c = '\r'
  · subst hr; rfl
  by_cases hn : c = '\n'
  · subst hn; rfl
  by_cases hc : c = ':'
  · subst hc; rfl
  by_cases hk : c = ','
  · subst hk; rfl
  simp [hp, hr, hn, hc, hk]

/-! ## Escapes -/

/-- The escapes: the two characters after the percent sign, and the character that they mean. -/
def codes : List (Char × Char × Char) :=
  [('0', 'D', '\r'), ('0', 'A', '\n'), ('3', 'A', ':'), ('2', 'C', ','), ('2', '5', '%')]

/-- A character that ends no line, and that neither ends a property nor the list of them. -/
structure Plain (c : Char) : Prop where
  lineEnd : isLineEnd c = false
  colon : c ≠ ':'
  comma : c ≠ ','

theorem plain_of_mem_code {x y c d : Char} (h : (x, y, c) ∈ codes) (hd : d ∈ ['%', x, y]) :
    Plain d := by
  have hall : codes.all (fun t => ['%', t.1, t.2.1].all fun d =>
      !isLineEnd d && d != ':' && d != ',') = true := by decide
  have hone := List.all_eq_true.1 (List.all_eq_true.1 hall _ h) d hd
  simp only [Bool.and_eq_true, Bool.not_eq_true', bne_iff_ne] at hone
  obtain ⟨⟨hend, hcolon⟩, hcomma⟩ := hone
  exact ⟨hend, hcolon, hcomma⟩

/-- A character of a message is written as an escape or as itself. -/
theorem escapeChar_cases (c : Char) :
    (∃ x y, escapeChar c = ['%', x, y] ∧ (x, y, c) ∈ codes) ∨
      escapeChar c = [c] ∧ c ≠ '%' ∧ isLineEnd c = false := by
  unfold escapeChar
  by_cases hp : c = '%'
  · subst hp
    exact .inl ⟨'2', '5', rfl, by decide⟩
  by_cases hr : c = '\r'
  · subst hr
    exact .inl ⟨'0', 'D', rfl, by decide⟩
  by_cases hn : c = '\n'
  · subst hn
    exact .inl ⟨'0', 'A', rfl, by decide⟩
  rw [if_neg hp, if_neg hr, if_neg hn]
  exact .inr ⟨rfl, hp, by simp [isLineEnd, hr, hn]⟩

theorem escapePropertyChar_cases (c : Char) :
    (∃ x y, escapePropertyChar c = ['%', x, y] ∧ (x, y, c) ∈ codes) ∨
      escapePropertyChar c = [c] ∧ c ≠ '%' ∧ Plain c := by
  unfold escapePropertyChar
  by_cases hc : c = ':'
  · subst hc
    exact .inl ⟨'3', 'A', rfl, by decide⟩
  by_cases hk : c = ','
  · subst hk
    exact .inl ⟨'2', 'C', rfl, by decide⟩
  rw [if_neg hc, if_neg hk]
  rcases escapeChar_cases c with h | ⟨h, hp, hend⟩
  · exact .inl h
  · exact .inr ⟨h, hp, hend, hc, hk⟩

theorem not_isLineEnd_of_mem_escape {s : List Char} {d : Char} (h : d ∈ escape s) :
    isLineEnd d = false := by
  rw [escape_eq_flatMap] at h
  obtain ⟨c, _, hd⟩ := List.mem_flatMap.1 h
  rcases escapeChar_cases c with ⟨x, y, hc, hcode⟩ | ⟨hc, -, hend⟩ <;> rw [hc] at hd
  · exact (plain_of_mem_code hcode hd).lineEnd
  · rwa [List.mem_singleton.1 hd]

theorem plain_of_mem_escapeProperty {s : List Char} {d : Char} (h : d ∈ escapeProperty s) :
    Plain d := by
  rw [escapeProperty_eq_flatMap] at h
  obtain ⟨c, _, hd⟩ := List.mem_flatMap.1 h
  rcases escapePropertyChar_cases c with ⟨x, y, hc, hcode⟩ | ⟨hc, -, hplain⟩ <;> rw [hc] at hd
  · exact plain_of_mem_code hcode hd
  · rwa [List.mem_singleton.1 hd]

/-! ## Reading -/

/-- A character that starts no escape is read as itself. -/
theorem unescape_cons {c : Char} (h : c ≠ '%') (s : List Char) :
    unescape (c :: s) = c :: unescape s := by
  simp only [unescape, replaceAll_cons_of_ne _ _ _ h]

/-- An escape is read as its character. -/
theorem unescape_code {x y c : Char} (h : (x, y, c) ∈ codes) (s : List Char) :
    unescape ('%' :: x :: y :: s) = c :: unescape s := by
  simp only [codes, List.mem_cons, List.not_mem_nil, Prod.mk.injEq, or_false] at h
  rcases h with ⟨rfl, rfl, rfl⟩ | ⟨rfl, rfl, rfl⟩ | ⟨rfl, rfl, rfl⟩ | ⟨rfl, rfl, rfl⟩ |
      ⟨rfl, rfl, rfl⟩ <;>
    simp [unescape, replaceAll_cons, startsWith, after?]

/-- What is written character by character, as escapes or as it stands, is read so. -/
theorem unescape_flatMap {write : Char → List Char}
    (h : ∀ c, (∃ x y, write c = ['%', x, y] ∧ (x, y, c) ∈ codes) ∨ write c = [c] ∧ c ≠ '%')
    (s : List Char) : unescape (s.flatMap write) = s := by
  induction s with
  | nil => rfl
  | cons c s ih =>
    rw [List.flatMap_cons]
    rcases h c with ⟨x, y, hc, hcode⟩ | ⟨hc, hp⟩
    · rw [hc, List.cons_append, List.cons_append, List.singleton_append, unescape_code hcode, ih]
    · rw [hc, List.singleton_append, unescape_cons hp, ih]

@[simp] theorem unescape_escape (s : List Char) : unescape (escape s) = s := by
  rw [escape_eq_flatMap]
  refine unescape_flatMap (fun c => ?_) s
  exact (escapeChar_cases c).imp_right fun h => ⟨h.1, h.2.1⟩

@[simp] theorem unescape_escapeProperty (s : List Char) : unescape (escapeProperty s) = s := by
  rw [escapeProperty_eq_flatMap]
  refine unescape_flatMap (fun c => ?_) s
  exact (escapePropertyChar_cases c).imp_right fun h => ⟨h.1, h.2.1⟩

/-! ## Meaning -/

/-- The text that is written, where each escape stands for its character. -/
inductive Means : (written : List Char) → (text : List Char) → Prop where
  | nil : Means [] []
  | code {x y c : Char} {written text : List Char} : (x, y, c) ∈ codes → Means written text →
      Means ('%' :: x :: y :: written) (c :: text)
  | char {c : Char} {written text : List Char} :
      (∀ x y d, (x, y, d) ∈ codes → ¬ ['%', x, y] <+: c :: written) → Means written text →
      Means (c :: written) (c :: text)

/-- What a replacement of escapes writes is in no escape. -/
theorem prefix_replaceAll_iff {word code : List Char} {d : Char}
    (hword : ∀ c ∈ word, c ≠ '%' ∧ c ≠ d) (s : List Char) :
    word <+: replaceAll ('%' :: code) [d] s ↔ word <+: s := by
  induction word generalizing s with
  | nil => simp
  | cons b word ih =>
    obtain ⟨hb, hbd⟩ := hword b List.mem_cons_self
    have hmore : ∀ c ∈ word, c ≠ '%' ∧ c ≠ d := fun c hc => hword c (List.mem_cons_of_mem b hc)
    cases s with
    | nil => simp [replaceAll, replaceFrom]
    | cons c s =>
      by_cases hc : c = '%'
      · subst hc
        rw [replaceAll_cons]
        split
        · simp [List.cons_prefix_cons, hb, hbd]
        · simp [List.cons_prefix_cons, hb]
      · rw [replaceAll_cons_of_ne _ _ _ hc, List.cons_prefix_cons, List.cons_prefix_cons, ih hmore]

theorem not_prefix_replaceAll {word code s : List Char} {d : Char}
    (hword : ∀ c ∈ word, c ≠ '%' ∧ c ≠ d) (h : ¬ word <+: s) :
    ¬ word <+: replaceAll ('%' :: code) [d] s := mt (prefix_replaceAll_iff hword s).1 h

theorem replaceAll_percent {code s : List Char} (new : List Char) (h : ¬ code <+: s) :
    replaceAll ('%' :: code) new ('%' :: s) = '%' :: replaceAll ('%' :: code) new s := by
  have hstart : startsWith ('%' :: code) ('%' :: s) = false := by
    rw [Bool.eq_false_iff, Ne, startsWith_iff, List.prefix_cons_inj]
    exact h
  rw [replaceAll_cons, hstart, if_neg Bool.false_ne_true]

/-- A percent sign that starts no escape is read as itself. -/
theorem unescape_percent {s : List Char} (h : ∀ x y c, (x, y, c) ∈ codes → ¬ [x, y] <+: s) :
    unescape ('%' :: s) = '%' :: unescape s := by
  have h₁ : ¬ ['0', 'D'] <+: s := h _ _ '\r' (by decide)
  have h₂ : ¬ ['0', 'A'] <+: s := h _ _ '\n' (by decide)
  have h₃ : ¬ ['3', 'A'] <+: s := h _ _ ':' (by decide)
  have h₄ : ¬ ['2', 'C'] <+: s := h _ _ ',' (by decide)
  have h₅ : ¬ ['2', '5'] <+: s := h _ _ '%' (by decide)
  unfold unescape
  rw [replaceAll_percent _ h₁]
  rw [replaceAll_percent _ (not_prefix_replaceAll (by simp) h₂)]
  rw [replaceAll_percent _ (not_prefix_replaceAll (by simp) (not_prefix_replaceAll (by simp) h₃))]
  rw [replaceAll_percent _ (not_prefix_replaceAll (by simp) (not_prefix_replaceAll (by simp)
    (not_prefix_replaceAll (by simp) h₄)))]
  rw [replaceAll_percent _ (not_prefix_replaceAll (by simp) (not_prefix_replaceAll (by simp)
    (not_prefix_replaceAll (by simp) (not_prefix_replaceAll (by simp) h₅))))]

theorem Means.unescape_eq {s t : List Char} (h : Means s t) : unescape s = t := by
  induction h with
  | nil => rfl
  | code hcode _ ih => rw [unescape_code hcode, ih]
  | @char c written text hno _ ih =>
    by_cases hc : c = '%'
    · subst hc
      rw [unescape_percent, ih]
      intro x y d hcode hprefix
      exact hno x y d hcode ((List.prefix_cons_inj _).2 hprefix)
    · rw [unescape_cons hc, ih]

theorem exists_means (s : List Char) : ∃ t, Means s t := by
  -- An escape takes three characters at once, so the induction is on the length.
  induction hn : s.length using Nat.strongRecOn generalizing s with
  | ind n ih =>
    cases s with
    | nil => exact ⟨[], .nil⟩
    | cons c s =>
      by_cases h : ∃ x y d, (x, y, d) ∈ codes ∧ ['%', x, y] <+: c :: s
      · obtain ⟨x, y, d, hcode, rest, hrest⟩ := h
        have hlength : rest.length < n := by
          rw [← hn, ← hrest, List.length_append]
          exact Nat.lt_add_of_pos_left (Nat.succ_pos 2)
        obtain ⟨t, ht⟩ := ih rest.length hlength rest rfl
        rw [← hrest]
        exact ⟨d :: t, .code hcode ht⟩
      · have hlength : s.length < n := by
          rw [← hn, List.length_cons]
          exact Nat.lt_succ_self s.length
        obtain ⟨t, ht⟩ := ih s.length hlength s rfl
        refine ⟨c :: t, .char ?_ ht⟩
        intro x y d hcode hprefix
        exact h ⟨x, y, d, hcode, hprefix⟩

/-- Texts are read escape by escape. -/
theorem means_iff {s t : List Char} : Means s t ↔ unescape s = t := by
  constructor
  · exact Means.unescape_eq
  · intro h
    obtain ⟨t', ht⟩ := exists_means s
    rwa [← h, ht.unescape_eq]

/-! ## One pass -/

/-- The text of a written form, read once from the left: an escape gives its character, and reading
goes on behind the escape. -/
def unescapeOnce : List Char → List Char
  | '%' :: '0' :: 'D' :: rest => '\r' :: unescapeOnce rest
  | '%' :: '0' :: 'A' :: rest => '\n' :: unescapeOnce rest
  | '%' :: '3' :: 'A' :: rest => ':' :: unescapeOnce rest
  | '%' :: '2' :: 'C' :: rest => ',' :: unescapeOnce rest
  | '%' :: '2' :: '5' :: rest => '%' :: unescapeOnce rest
  | c :: rest => c :: unescapeOnce rest
  | [] => []

/-- What is read in one pass is what each escape and each other character means. -/
theorem means_unescapeOnce (s : List Char) : Means s (unescapeOnce s) := by
  fun_induction unescapeOnce s with
  | case1 rest ih => exact .code (by decide) ih
  | case2 rest ih => exact .code (by decide) ih
  | case3 rest ih => exact .code (by decide) ih
  | case4 rest ih => exact .code (by decide) ih
  | case5 rest ih => exact .code (by decide) ih
  | case6 c rest hcr hlf hcolon hcomma hpercent ih =>
    refine .char ?_ ih
    rintro x y d hcode ⟨more, hmore⟩
    simp only [codes, List.mem_cons, List.not_mem_nil, Prod.mk.injEq, or_false] at hcode
    obtain ⟨rfl, hrest⟩ := List.cons.inj hmore
    rcases hcode with ⟨rfl, rfl, -⟩ | ⟨rfl, rfl, -⟩ | ⟨rfl, rfl, -⟩ | ⟨rfl, rfl, -⟩ | ⟨rfl, rfl, -⟩
    · exact hcr more rfl hrest.symm
    · exact hlf more rfl hrest.symm
    · exact hcolon more rfl hrest.symm
    · exact hcomma more rfl hrest.symm
    · exact hpercent more rfl hrest.symm
  | case7 => exact .nil

/-- Replacing one escape after the other reads a text as one pass from the left does, also where
its percent signs start no escape: no replacement takes anything for an escape that another one has
written. -/
theorem unescape_eq_unescapeOnce (s : List Char) : unescape s = unescapeOnce s :=
  means_iff.1 (means_unescapeOnce s)

/-- An escaped percent sign is not read as the start of an escape, nor is one that stands alone. -/
example : unescape "%250A%%0A%2%0d".toList = "%0A%\n%2%0d".toList := by decide

end Steward.Annotation
