import Steward.Text.Search

/-!
# What replacing a word leaves of a text

Occurrences are taken from the left and without overlap. What stands between them stays, in order,
and the new word stands where they were; put together, the new word and what stays may hold the old
word again.

* `Pieces`: what stands between the occurrences of a word.
* `exists_pieces`, `Pieces.replaceAll_eq`: every text has its pieces, and replacing joins them by
  the new word.
* `replaceAll_append_cons`: no occurrence goes across a character that the word does not have.
* `Apart.not_infix_replaceAll`: a word of which the new one makes up no part does not come back.
* `infix_replaceAll_of_head`, `infix_replaceAll_of_inside`, `infix_replaceAll_of_getLast`: a word
  that starts with the end of the new one, holds it or ends with its start comes back in some text.
-/

namespace Steward.Text

variable {word new text before rest : List Char} {pieces : List (List Char)} {c : Char}

/-- The pieces of a text between the occurrences of a word, taken from the left and without overlap:
no occurrence starts in any of them. -/
inductive Pieces (word : List Char) : List Char → List (List Char) → Prop
  | last {text : List Char} (h : ¬ word <:+: text) : Pieces word text [text]
  | cut {before rest : List Char} {pieces : List (List Char)}
      (h : ¬ word <:+: before ++ word.dropLast) (hrest : Pieces word rest pieces) :
      Pieces word (before ++ word ++ rest) (before :: pieces)

/-! ## Cutting and joining -/

/-- A text without the word stays as it is. -/
theorem replaceAll_of_free (new : List Char) (h : ¬ word <:+: text) :
    replaceAll word new text = text :=
  replaceAll_eq_self new (Bool.eq_false_iff.2 fun hc => h (contains_iff.1 hc))

/-- The first occurrence is replaced, and then the rest is gone through. -/
theorem replaceAll_append_word (new rest : List Char) (hne : word ≠ [])
    (h : ¬ word <:+: before ++ word.dropLast) :
    replaceAll word new (before ++ word ++ rest) = before ++ new ++ replaceAll word new rest := by
  cases word with
  | nil => exact absurd rfl hne
  | cons d word =>
    induction before with
    | nil => exact replaceAll_word word new rest
    | cons b before ih =>
      rw [List.cons_append, List.infix_cons_iff, not_or] at h
      have hstart : startsWith (d :: word) (b :: (before ++ d :: word ++ rest)) = false := by
        rw [Bool.eq_false_iff, ne_eq, startsWith_iff, ← prefix_append_dropLast_iff]
        exact h.1
      rw [List.cons_append, List.cons_append, replaceAll_cons, hstart, if_neg Bool.false_ne_true,
        ih h.2]
      rfl

/-- Every text has pieces. -/
theorem exists_pieces (hne : word ≠ []) (text : List Char) : ∃ pieces, Pieces word text pieces := by
  induction hn : text.length using Nat.strongRecOn generalizing text with
  | ind n ih =>
    subst hn
    by_cases hw : word <:+: text
    · obtain ⟨⟨before, rest⟩, hcut⟩ := Option.isSome_iff_exists.1 (contains_iff.2 hw)
      obtain ⟨rfl, hfirst⟩ := (cut?_eq_some_iff hne).1 hcut
      have hword := List.length_pos_iff.2 hne
      have hshort : rest.length < (before ++ word ++ rest).length := by
        simp only [List.length_append]
        omega
      obtain ⟨pieces, hpieces⟩ := ih _ hshort rest rfl
      exact ⟨before :: pieces, .cut hfirst hpieces⟩
    · exact ⟨[text], .last hw⟩

namespace Pieces

theorem ne_nil (h : Pieces word text pieces) : pieces ≠ [] := by
  cases h with
  | last => exact List.cons_ne_nil _ _
  | cut => exact List.cons_ne_nil _ _

theorem intercalate_cons (h : Pieces word rest pieces) (new before : List Char) :
    new.intercalate (before :: pieces) = before ++ new ++ new.intercalate pieces :=
  List.intercalate_cons_of_ne_nil h.ne_nil

/-- The word joins the pieces to the text. -/
theorem text_eq (h : Pieces word text pieces) : text = word.intercalate pieces := by
  induction h with
  | last => exact List.intercalate_singleton.symm
  | cut _ hrest ih => rw [hrest.intercalate_cons, ← ih]

/-- Replacing the word joins the pieces by the new one. -/
theorem replaceAll_eq (h : Pieces word text pieces) (new : List Char) (hne : word ≠ []) :
    replaceAll word new text = new.intercalate pieces := by
  induction h with
  | last h => rw [replaceAll_of_free new h, List.intercalate_singleton]
  | cut h hrest ih => rw [replaceAll_append_word new _ hne h, ih, hrest.intercalate_cons]

end Pieces

/-- No occurrence goes across a character that the word does not have. -/
theorem replaceAll_append_cons {x : List Char} (new y : List Char) (hne : word ≠ [])
    (hc : c ∉ word) :
    replaceAll word new (x ++ c :: y) = replaceAll word new x ++ c :: replaceAll word new y := by
  obtain ⟨pieces, hx⟩ := exists_pieces hne x
  induction hx with
  | @last x h =>
    rw [replaceAll_of_free new h]
    cases word with
    | nil => exact absurd rfl hne
    | cons d word =>
      induction x with
      | nil => exact replaceAll_cons_of_ne word new y (List.ne_of_not_mem_cons hc)
      | cons b x ih =>
        rw [List.infix_cons_iff, not_or] at h
        have hstart : startsWith (d :: word) (b :: (x ++ c :: y)) = false := by
          rw [Bool.eq_false_iff, ne_eq, startsWith_iff]
          rintro ⟨more, hmore⟩
          exact h.1 (prefix_of_append_cons (a := b :: x) hc hmore.symm)
        rw [List.cons_append, replaceAll_cons, hstart, if_neg Bool.false_ne_true, ih h.2]
        rfl
  | cut h _ ih =>
    rw [List.append_assoc, replaceAll_append_word new _ hne h, ih,
      replaceAll_append_word new _ hne h]
    simp only [List.append_assoc]

/-! ## Words that do not come back -/

/-- The new word does not lie in the old one, and has none of the characters at its ends. -/
structure Apart (word new : List Char) : Prop where
  head : ∀ c ∈ new, word.head? ≠ some c
  last : ∀ c ∈ new, word.getLast? ≠ some c
  inside : ¬ new <:+: word

/-- Between texts without the word, the new one does not make it up. -/
theorem Apart.not_infix_append {a b : List Char} (h : Apart word new) (hne : word ≠ [])
    (ha : ¬ word <:+: a) (hb : ¬ word <:+: b) : ¬ word <:+: a ++ new ++ b := by
  -- The word would start in the new one, or end there, or go across it.
  have hstart : ∀ l₁ l₂, word = l₁ ++ l₂ → l₁ ≠ [] → ¬ l₁ <:+: new := by
    rintro (_ | ⟨d, l₁⟩) l₂ rfl hl₁ hnew
    · exact hl₁ rfl
    · exact h.head d (hnew.subset List.mem_cons_self) rfl
  have hend : ∀ l₁ l₂, word = l₁ ++ l₂ → l₂ ≠ [] → ¬ l₂ <:+: new := by
    rintro l₁ l₂ rfl hl₂ hnew
    obtain ⟨l₂, d, rfl⟩ := List.eq_nil_or_concat l₂ |>.resolve_left hl₂
    refine h.last d (hnew.subset (by simp)) ?_
    simp
  rw [List.append_assoc]
  intro hw
  rcases List.infix_append_iff_ne_nil.1 hw with hw | hw | ⟨l₁, l₂, -, hl₂, hword, -, hpre⟩
  · exact ha hw
  · rcases List.infix_append_iff_ne_nil.1 hw with hw | hw | ⟨l₁, l₂, hl₁, -, hword, hsuf, -⟩
    · exact hstart word [] (List.append_nil word).symm hne hw
    · exact hb hw
    · exact hstart l₁ l₂ hword hl₁ hsuf.isInfix
  · rcases List.prefix_or_prefix_of_prefix hpre (List.prefix_append new b) with hshort | hlong
    · exact hend l₁ l₂ hword hl₂ hshort.isInfix
    · exact h.inside (hword ▸ hlong.isInfix.trans List.infix_append_right)

/-- A word does not come back when a word apart from it is put in its place. -/
theorem Apart.not_infix_replaceAll (h : Apart word new) (hne : word ≠ []) (text : List Char) :
    ¬ word <:+: replaceAll word new text := by
  obtain ⟨pieces, hpieces⟩ := exists_pieces hne text
  rw [hpieces.replaceAll_eq new hne]
  induction hpieces with
  | last hlast => rwa [List.intercalate_singleton]
  | cut hcut hrest ih =>
    rw [hrest.intercalate_cons]
    exact h.not_infix_append hne (fun hw => hcut (hw.trans List.infix_append_left)) ih

/-- Putting a word apart from it in its place leaves only a text without it as it is. -/
theorem Apart.replaceAll_eq_self_iff (h : Apart word new) (hne : word ≠ []) :
    replaceAll word new text = text ↔ ¬ word <:+: text := by
  refine ⟨fun heq hw => h.not_infix_replaceAll hne text ?_, replaceAll_of_free new⟩
  rwa [heq]

/-! ## Words that come back -/

theorem not_infix_of_length_lt (h : text.length < word.length) : ¬ word <:+: text := fun hw =>
  Nat.not_le.2 h hw.length_le

/-- A word that starts with the end of the new one comes back where it is followed by itself
without its start. -/
theorem infix_replaceAll_of_head (hnew : new.getLast? = some c) (word : List Char) :
    c :: word <:+: replaceAll (c :: word) new (c :: (word ++ word)) := by
  obtain ⟨n, rfl⟩ := List.getLast?_eq_some_iff.1 hnew
  have hshort : ¬ c :: word <:+: word := not_infix_of_length_lt (Nat.lt_succ_self _)
  rw [replaceAll_word, replaceAll_of_free _ hshort, List.append_assoc]
  exact List.infix_append_right

/-- Where two texts put together are two others, a first part that is no longer is a start of the
other first part. -/
theorem exists_eq_append_of_append_eq {a b start more : List Char} (h : a ++ b = start ++ more)
    (hle : a.length ≤ start.length) : ∃ mid, start = a ++ mid ∧ b = mid ++ more := by
  obtain ⟨mid, rfl⟩ := List.prefix_of_prefix_length_le ⟨b, h⟩ (List.prefix_append start more) hle
  rw [List.append_assoc] at h
  exact ⟨mid, rfl, List.append_cancel_left h⟩

/-- A word that ends with the start of the new one, and does not start with it, comes back where it
follows itself without its end. -/
theorem infix_replaceAll_of_getLast (hnew : new.head? = some c) (hhead : word.head? ≠ some c) :
    word ++ [c] <:+: replaceAll (word ++ [c]) new (word ++ (word ++ [c])) := by
  have hfirst : ¬ word ++ [c] <:+: word ++ (word ++ [c]).dropLast := by
    rw [List.dropLast_concat]
    rintro ⟨a, b, h⟩
    have hlength := congrArg List.length h
    simp only [List.length_append, List.length_singleton] at hlength
    rw [List.append_assoc] at h
    obtain ⟨mid, hword, h⟩ := exists_eq_append_of_append_eq h (by omega)
    rw [List.append_assoc] at h
    obtain ⟨mid', hword', h⟩ := exists_eq_append_of_append_eq h.symm (by simp [hword])
    -- The word is `a ++ mid` and `mid ++ mid'`, and `mid` is what stands behind `mid'` in it.
    have hmid : a.length = mid'.length := by
      have hlength := congrArg List.length (hword.symm.trans hword')
      simp only [List.length_append] at hlength
      omega
    obtain ⟨-, rfl⟩ := List.append_inj (hword.symm.trans h) hmid
    exact hhead (by rw [hword']; rfl)
  obtain ⟨n, rfl⟩ := List.head?_eq_some_iff.1 hnew
  have hreplace := replaceAll_append_word (c :: n) [] (List.concat_ne_nil c word) hfirst
  rw [List.append_nil] at hreplace
  rw [hreplace]
  exact ⟨[], n, by simp [replaceAll, replaceFrom]⟩

/-- A word that holds the new one comes back where what stands around the new one in it stands
around the word. -/
theorem infix_replaceAll_of_inside (hne : new ≠ []) (h : new <:+: word) :
    ∃ text, word <:+: replaceAll word new text := by
  obtain ⟨⟨x, y⟩, hcut⟩ := Option.isSome_iff_exists.1 (contains_iff.2 h)
  obtain ⟨hword, hearliest⟩ := (cut?_eq_some_iff hne).1 hcut
  have hnew := List.length_pos_iff.2 hne
  have hlength := congrArg List.length hword
  simp only [List.length_append] at hlength
  have hfirst : ¬ word <:+: x ++ word.dropLast := by
    rintro ⟨a, b, heq⟩
    have htotal := congrArg List.length heq
    simp only [List.length_append, List.length_dropLast] at htotal
    rw [List.append_assoc] at heq
    obtain ⟨mid, hx, heq⟩ := exists_eq_append_of_append_eq heq (by omega)
    rw [hword, List.append_assoc, List.append_assoc, ← hword] at heq
    obtain ⟨mid', hx', hdrop⟩ := exists_eq_append_of_append_eq heq.symm (by simp [hx])
    have hxs := congrArg List.length hx
    have hxs' := congrArg List.length hx'
    simp only [List.length_append] at hxs hxs'
    -- An occurrence before the word would have the new one stand earlier in it.
    have hforward : mid' ++ new <+: word := by
      refine List.IsPrefix.trans ⟨y ++ b, ?_⟩ (List.dropLast_prefix word)
      rw [hdrop, List.append_assoc]
    have hback : x ++ new.dropLast <+: word := by
      rw [hword, List.append_assoc, List.prefix_append_right_inj]
      exact (List.dropLast_prefix new).trans (List.prefix_append new y)
    refine hearliest (List.infix_append_right.trans
      (List.prefix_of_prefix_length_le hforward hback ?_).isInfix)
    simp only [List.length_append, List.length_dropLast]
    omega
  have hy : ¬ word <:+: y := not_infix_of_length_lt (by omega)
  have hne' : word ≠ [] := List.ne_nil_of_length_pos (by omega)
  have hback : replaceAll word new (x ++ word ++ y) = word := by
    rw [replaceAll_append_word new y hne' hfirst, replaceAll_of_free new hy, ← hword]
  refine ⟨x ++ word ++ y, [], [], ?_⟩
  rw [hback, List.nil_append, List.append_nil]

end Steward.Text
