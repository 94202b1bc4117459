/-!
# Finding and replacing a word in a text

* `after?_eq_some_iff`: the rest of a text after a word that it starts with.
* `before?_eq_some_iff`: the start of a text before a word that it ends with.
* `startsWith_iff`, `endsWith_iff`: the words that a text starts and ends with.
* `cut?_eq_some`, `cut?_eq_some_iff`: what a cut at the first occurrence of a word gives back.
* `cut?_append`: a cut at a word whose first character does not stand before it.
* `cut?_singleton_eq_some_iff`: a cut at the first occurrence of a character.
* `contains_iff`: a word occurs in the texts that have it in them.
* `replaceAll_eq_self`: a text without the word stays as it is.
* `replaceAll_intercalate`: a word that joins pieces is replaced between them.
* `replaceAll_singleton`: one character is replaced wherever it stands.
* `splitOn_intercalate`, `intercalate_splitOn`: what was joined by a separator comes apart at it,
  and the other way round.
-/

namespace Steward.Text

/-- What follows `word` in a text that starts with it. -/
def after? : (word text : List Char) → Option (List Char)
  | [], text => some text
  | _ :: _, [] => none
  | c :: word, d :: text => if c = d then after? word text else none

theorem after?_eq_some_iff {word text rest : List Char} :
    after? word text = some rest ↔ text = word ++ rest := by
  induction word generalizing text with
  | nil => simp [after?]
  | cons c word ih =>
    cases text with
    | nil => simp [after?]
    | cons d text =>
      by_cases h : c = d
      · subst h; simp [after?, ih]
      · simp [after?, h, Ne.symm h]

@[simp] theorem after?_append (word rest : List Char) : after? word (word ++ rest) = some rest :=
  after?_eq_some_iff.2 rfl

/-- Whether a text starts with `word`. -/
def startsWith (word text : List Char) : Bool := (after? word text).isSome

/-- Whether a text ends with `word`. -/
def endsWith (word text : List Char) : Bool := startsWith word.reverse text.reverse

theorem startsWith_iff {word text : List Char} : startsWith word text = true ↔ word <+: text := by
  rw [startsWith, Option.isSome_iff_exists]
  constructor
  · rintro ⟨rest, h⟩
    exact ⟨rest, (after?_eq_some_iff.1 h).symm⟩
  · rintro ⟨rest, rfl⟩
    exact ⟨rest, after?_append word rest⟩

theorem endsWith_iff {word text : List Char} : endsWith word text = true ↔ word <:+ text := by
  rw [endsWith, startsWith_iff, List.reverse_prefix]

/-- What stands before `word` in a text that ends with it. -/
def before? (word text : List Char) : Option (List Char) :=
  (after? word.reverse text.reverse).map List.reverse

theorem before?_eq_some_iff {word text rest : List Char} :
    before? word text = some rest ↔ text = rest ++ word := by
  unfold before?
  rw [Option.map_eq_some_iff]
  constructor
  · rintro ⟨r, hr, rfl⟩
    have := congrArg List.reverse (after?_eq_some_iff.1 hr)
    simpa using this
  · rintro rfl
    exact ⟨rest.reverse, by simp, by simp⟩

/-- The text before and after the first occurrence of `word`. -/
def cut? (word : List Char) : List Char → Option (List Char × List Char)
  | [] => (after? word []).map ([], ·)
  | c :: text =>
    match after? word (c :: text) with
    | some rest => some ([], rest)
    | none => (cut? word text).map fun (before, rest) => (c :: before, rest)

theorem cut?_eq_some {word text before rest : List Char}
    (h : cut? word text = some (before, rest)) : text = before ++ word ++ rest := by
  induction text generalizing before with
  | nil =>
    simp only [cut?, Option.map_eq_some_iff, Prod.mk.injEq] at h
    obtain ⟨r, hr, rfl, rfl⟩ := h
    simpa using after?_eq_some_iff.1 hr
  | cons c text ih =>
    simp only [cut?] at h
    split at h
    · next r hr =>
      simp only [Option.some.injEq, Prod.mk.injEq] at h
      obtain ⟨rfl, rfl⟩ := h
      simpa using after?_eq_some_iff.1 hr
    · simp only [Option.map_eq_some_iff, Prod.mk.injEq, Prod.exists] at h
      obtain ⟨b, r, hb, rfl, rfl⟩ := h
      simp [ih hb]

/-- Whether `word` occurs in a text. -/
def contains (word text : List Char) : Bool := (cut? word text).isSome

theorem contains_iff {word text : List Char} : contains word text = true ↔ word <:+: text := by
  rw [contains]
  constructor
  · intro h
    obtain ⟨⟨before, rest⟩, hcut⟩ := Option.isSome_iff_exists.1 h
    exact ⟨before, rest, (cut?_eq_some hcut).symm⟩
  · intro h
    induction text with
    | nil =>
      rw [List.eq_nil_of_infix_nil h]
      rfl
    | cons c text ih =>
      rw [cut?]
      cases ha : after? word (c :: text) with
      | some rest => rfl
      | none =>
        rcases List.infix_cons_iff.1 h with hstart | hmore
        · rw [← startsWith_iff, startsWith, ha] at hstart
          cases hstart
        · rw [Option.isSome_map]
          exact ih hmore

/-- The text with the occurrences of `word`, taken from the left and without overlap, turned into
`new`, where the first `skip` characters are dropped. -/
def replaceFrom (word new : List Char) : (skip : Nat) → List Char → List Char
  | _, [] => []
  | skip + 1, _ :: text => replaceFrom word new skip text
  | 0, c :: text =>
    if startsWith word (c :: text) then new ++ replaceFrom word new (word.length - 1) text
    else c :: replaceFrom word new 0 text

/-- The text with the occurrences of a nonempty `word`, taken from the left and without overlap,
turned into `new`; an empty word occurs nowhere. -/
def replaceAll (word new text : List Char) : List Char :=
  if word.isEmpty then text else replaceFrom word new 0 text

theorem replaceFrom_skip (word new : List Char) (n : Nat) (text : List Char) :
    replaceFrom word new n text = replaceFrom word new 0 (text.drop n) := by
  induction n generalizing text with
  | zero => simp
  | succ n ih =>
    cases text with
    | nil => simp [replaceFrom]
    | cons c text => simp [replaceFrom, ih]

theorem replaceFrom_word {word : List Char} (new rest : List Char) (h : word ≠ []) :
    replaceFrom word new 0 (word ++ rest) = new ++ replaceFrom word new 0 rest := by
  cases word with
  | nil => contradiction
  | cons c word =>
    have hs : startsWith (c :: word) (c :: (word ++ rest)) = true := by
      simp [startsWith, after?]
    rw [List.cons_append, replaceFrom, if_pos hs, replaceFrom_skip]
    simp

theorem replaceAll_eq_self {word text : List Char} (new : List Char)
    (h : contains word text = false) : replaceAll word new text = text := by
  unfold replaceAll
  split
  · rfl
  · induction text with
    | nil => rfl
    | cons c text ih =>
      simp only [contains, cut?] at h
      split at h
      · simp at h
      · next hn =>
        have hs : startsWith word (c :: text) = false := by simp [startsWith, hn]
        simp only [Option.isSome_map] at h
        simp [replaceFrom, hs, ih h]

theorem replaceAll_cons {c d : Char} (word new text : List Char) :
    replaceAll (d :: word) new (c :: text) =
      if startsWith (d :: word) (c :: text) then
        new ++ replaceAll (d :: word) new (text.drop word.length)
      else c :: replaceAll (d :: word) new text := by
  unfold replaceAll
  rw [List.isEmpty_cons, if_neg Bool.false_ne_true, if_neg Bool.false_ne_true,
    if_neg Bool.false_ne_true, replaceFrom, replaceFrom_skip]
  rfl

theorem replaceAll_cons_of_ne {c d : Char} (word new text : List Char) (h : c ≠ d) :
    replaceAll (d :: word) new (c :: text) = c :: replaceAll (d :: word) new text := by
  have hs : startsWith (d :: word) (c :: text) = false := by simp [startsWith, after?, h.symm]
  rw [replaceAll_cons, hs, if_neg Bool.false_ne_true]

theorem replaceAll_word {d : Char} (word new rest : List Char) :
    replaceAll (d :: word) new (d :: (word ++ rest)) = new ++ replaceAll (d :: word) new rest :=
  replaceFrom_word new rest (List.cons_ne_nil d word)

theorem replaceAll_append {d : Char} {start : List Char} (word new text : List Char)
    (h : d ∉ start) :
    replaceAll (d :: word) new (start ++ text) = start ++ replaceAll (d :: word) new text := by
  induction start with
  | nil => rfl
  | cons c start ih =>
    rw [List.mem_cons, not_or] at h
    rw [List.cons_append, replaceAll_cons_of_ne word new _ (Ne.symm h.1), ih h.2, List.cons_append]

/-- Where a word joins pieces without its first character, replacing it joins them by another. -/
theorem replaceAll_intercalate {d : Char} {pieces : List (List Char)} (word new : List Char)
    (h : ∀ p ∈ pieces, d ∉ p) :
    replaceAll (d :: word) new ((d :: word).intercalate pieces) = new.intercalate pieces := by
  induction pieces with
  | nil => rfl
  | cons p pieces ih =>
    have hp : d ∉ p := h p List.mem_cons_self
    cases pieces with
    | nil =>
      have hnil : replaceAll (d :: word) new [] = [] := rfl
      have hself := replaceAll_append word new [] hp
      rw [hnil, List.append_nil] at hself
      rw [List.intercalate_singleton, List.intercalate_singleton, hself]
    | cons q pieces =>
      have hmore := ih fun r hr => h r (List.mem_cons_of_mem _ hr)
      rw [List.intercalate_cons_cons, List.intercalate_cons_cons, List.append_assoc,
        replaceAll_append word new _ hp, List.cons_append, replaceAll_word, hmore,
        List.append_assoc]

/-- A character is replaced wherever it stands. -/
theorem replaceAll_singleton (d : Char) (new text : List Char) :
    replaceAll [d] new text = text.flatMap fun c => if c = d then new else [c] := by
  induction text with
  | nil => rfl
  | cons c text ih =>
    rw [List.flatMap_cons, ← ih]
    by_cases h : c = d
    · subst h
      rw [if_pos rfl]
      exact replaceAll_word [] new text
    · rw [if_neg h]
      exact replaceAll_cons_of_ne [] new text h

theorem cut?_append {c : Char} {before : List Char} (word rest : List Char) (h : c ∉ before) :
    cut? (c :: word) (before ++ c :: (word ++ rest)) = some (before, rest) := by
  induction before with
  | nil =>
    have ha : after? (c :: word) (c :: (word ++ rest)) = some rest := after?_append (c :: word) rest
    rw [List.nil_append, cut?, ha]
  | cons b before ih =>
    rw [List.mem_cons, not_or] at h
    have ha : after? (c :: word) (b :: (before ++ c :: (word ++ rest))) = none := by
      rw [after?, if_neg h.1]
    rw [List.cons_append, cut?, ha]
    simp only [ih h.2, Option.map_some]

/-- What starts with a word without `c`, and has its first `c` somewhere, has it behind the word. -/
theorem prefix_of_append_cons {word a b more : List Char} {c : Char} (hc : c ∉ word)
    (h : a ++ c :: b = word ++ more) : word <+: a := by
  rcases List.append_eq_append_iff.1 h with ⟨mid, hword, hmid⟩ | ⟨mid, ha, -⟩
  · cases mid with
    | nil => exact ⟨[], by simpa using hword⟩
    | cons d mid =>
      obtain ⟨rfl, -⟩ := List.cons.inj hmid
      exact absurd (by simp [hword]) hc
  · exact ⟨mid, ha.symm⟩

/-- A cut at one character is the one before which the character does not stand. -/
theorem cut?_singleton_eq_some_iff {c : Char} {text before rest : List Char} :
    cut? [c] text = some (before, rest) ↔ text = before ++ c :: rest ∧ c ∉ before := by
  constructor
  · intro h
    refine ⟨by simpa using cut?_eq_some h, ?_⟩
    induction text generalizing before with
    | nil => cases h
    | cons d text ih =>
      by_cases hd : c = d
      · simp only [cut?, after?, if_pos hd, Option.some.injEq, Prod.mk.injEq] at h
        simp [← h.1]
      · simp only [cut?, after?, if_neg hd, Option.map_eq_some_iff, Prod.mk.injEq,
          Prod.exists] at h
        obtain ⟨before, rest, hcut, rfl, rfl⟩ := h
        rw [List.mem_cons, not_or]
        exact ⟨hd, ih hcut⟩
  · rintro ⟨rfl, h⟩
    exact cut?_append [] rest h

/-- Whether a word stands at the start of a text is seen before its last character is. -/
theorem prefix_append_dropLast_iff {word before : List Char} (c : Char) (rest : List Char) :
    word <+: c :: (before ++ word.dropLast) ↔ word <+: c :: (before ++ word ++ rest) := by
  have hprefix : c :: (before ++ word.dropLast) <+: c :: (before ++ word ++ rest) := by
    rw [List.append_assoc, List.prefix_cons_inj, List.prefix_append_right_inj]
    exact (List.dropLast_prefix word).trans (List.prefix_append _ _)
  constructor
  · intro h
    exact h.trans hprefix
  · intro h
    apply List.prefix_of_prefix_length_le h hprefix
    simp only [List.length_cons, List.length_append, List.length_dropLast]
    omega

/-- A cut is the one with no occurrence of the word that starts before it. -/
theorem cut?_eq_some_iff {word text before rest : List Char} (hne : word ≠ []) :
    cut? word text = some (before, rest) ↔
      text = before ++ word ++ rest ∧ ¬ word <:+: before ++ word.dropLast := by
  have hlength := List.length_pos_iff.2 hne
  have hnil : ¬ word <:+: word.dropLast := by
    intro h
    have hle := h.length_le
    rw [List.length_dropLast] at hle
    omega
  induction text generalizing before with
  | nil =>
    have hafter : after? word [] = none := by
      cases word with
      | nil => exact absurd rfl hne
      | cons c word => rfl
    simp [cut?, hafter, hne]
  | cons c text ih =>
    cases before with
    | nil =>
      rw [cut?]
      cases ha : after? word (c :: text) with
      | some r =>
        have hr := after?_eq_some_iff.1 ha
        simp [hr, hnil]
      | none =>
        have hno : c :: text ≠ word ++ rest := by
          intro heq
          rw [after?_eq_some_iff.2 heq] at ha
          cases ha
        simp [hno]
    | cons b before =>
      rw [cut?, List.cons_append, List.cons_append, List.cons_append, List.infix_cons_iff, not_or,
        prefix_append_dropLast_iff b rest]
      cases ha : after? word (c :: text) with
      | some r =>
        have hstart : word <+: c :: text := ⟨r, (after?_eq_some_iff.1 ha).symm⟩
        constructor
        · intro h
          cases h
        · intro h
          obtain ⟨heq, hno, -⟩ := h
          rw [heq] at hstart
          exact absurd hstart hno
      | none =>
        have hstart : ¬ word <+: c :: text := by
          intro h
          obtain ⟨r, hr⟩ := h
          rw [after?_eq_some_iff.2 hr.symm] at ha
          cases ha
        simp only [Option.map_eq_some_iff, Prod.mk.injEq, List.cons.injEq, Prod.exists]
        constructor
        · intro h
          obtain ⟨before, rest, hcut, ⟨rfl, rfl⟩, rfl⟩ := h
          obtain ⟨rfl, hfirst⟩ := ih.1 hcut
          exact ⟨⟨rfl, rfl⟩, hstart, hfirst⟩
        · intro h
          obtain ⟨⟨rfl, htext⟩, -, hfirst⟩ := h
          exact ⟨before, rest, ih.2 ⟨htext, hfirst⟩, ⟨rfl, rfl⟩, rfl⟩

/-- The pieces of a text between the characters `sep`; there is always at least one. -/
def splitOn (sep : Char) : List Char → List (List Char)
  | [] => [[]]
  | c :: text =>
    if c = sep then [] :: splitOn sep text
    else
      match splitOn sep text with
      | [] => [[c]]
      | piece :: more => (c :: piece) :: more

theorem splitOn_append {sep : Char} {piece : List Char} (rest : List Char) (h : sep ∉ piece) :
    splitOn sep (piece ++ sep :: rest) = piece :: splitOn sep rest := by
  induction piece with
  | nil => rw [List.nil_append, splitOn, if_pos rfl]
  | cons c piece ih =>
    rw [List.mem_cons, not_or] at h
    rw [List.cons_append, splitOn, if_neg (Ne.symm h.1), ih h.2]

theorem splitOn_of_not_mem {sep : Char} {piece : List Char} (h : sep ∉ piece) :
    splitOn sep piece = [piece] := by
  induction piece with
  | nil => rfl
  | cons c piece ih =>
    rw [List.mem_cons, not_or] at h
    rw [splitOn, if_neg (Ne.symm h.1), ih h.2]

theorem head?_splitOn (sep : Char) (text : List Char) :
    (splitOn sep text).head? = some (text.takeWhile (· ≠ sep)) := by
  induction text with
  | nil => rfl
  | cons c text ih =>
    rw [splitOn]
    split
    · next h => simp [h]
    · next h =>
      cases hs : splitOn sep text with
      | nil => simp [hs] at ih
      | cons piece more =>
        obtain rfl : piece = _ := by simpa [hs] using ih
        simp [h]

theorem splitOn_ne_nil (sep : Char) (text : List Char) : splitOn sep text ≠ [] := by
  intro h
  have hhead := head?_splitOn sep text
  rw [h] at hhead
  cases hhead

theorem not_mem_of_mem_splitOn {sep : Char} {text piece : List Char}
    (h : piece ∈ splitOn sep text) : sep ∉ piece := by
  induction text generalizing piece with
  | nil =>
    obtain rfl := List.mem_singleton.1 h
    exact List.not_mem_nil
  | cons c text ih =>
    rw [splitOn] at h
    split at h
    · rcases List.mem_cons.1 h with rfl | h
      · exact List.not_mem_nil
      · exact ih h
    · next hc =>
      cases hs : splitOn sep text with
      | nil => exact absurd hs (splitOn_ne_nil sep text)
      | cons first more =>
        simp only [hs] at h ih
        rcases List.mem_cons.1 h with rfl | h
        · have hfirst := ih List.mem_cons_self
          simp [hfirst, Ne.symm hc]
        · exact ih (List.mem_cons_of_mem first h)

/-- The pieces make up the text again. -/
theorem intercalate_splitOn (sep : Char) (text : List Char) :
    List.intercalate [sep] (splitOn sep text) = text := by
  induction text with
  | nil => rfl
  | cons c text ih =>
    rw [splitOn]
    cases hs : splitOn sep text with
    | nil => exact absurd hs (splitOn_ne_nil sep text)
    | cons piece more =>
      rw [hs] at ih
      split
      · next hc => rw [List.intercalate_cons_cons, ih, hc, List.nil_append, List.singleton_append]
      · rw [← ih]
        cases more <;> simp [List.intercalate_cons_cons]

/-- Pieces without the separator that are joined by it come apart again. -/
theorem splitOn_intercalate {sep : Char} {pieces : List (List Char)} (hne : pieces ≠ [])
    (h : ∀ p ∈ pieces, sep ∉ p) : splitOn sep (List.intercalate [sep] pieces) = pieces := by
  induction pieces with
  | nil => exact absurd rfl hne
  | cons p pieces ih =>
    have hp : sep ∉ p := h p List.mem_cons_self
    cases pieces with
    | nil =>
      rw [List.intercalate_singleton]
      exact splitOn_of_not_mem hp
    | cons q pieces =>
      have hmore := ih (List.cons_ne_nil _ _) fun r hr => h r (List.mem_cons_of_mem _ hr)
      rw [List.intercalate_cons_cons, List.append_assoc, List.singleton_append,
        splitOn_append _ hp, hmore]

/-- The nonempty pieces of a text between characters of `p`. -/
def words (p : Char → Bool) : List Char → List (List Char)
  | [] => []
  | c :: text =>
    if p c then words p text
    else
      match text with
      | [] => [[c]]
      | d :: _ =>
        if p d then [c] :: words p text
        else
          match words p text with
          | [] => [[c]]
          | piece :: more => (c :: piece) :: more

end Steward.Text
