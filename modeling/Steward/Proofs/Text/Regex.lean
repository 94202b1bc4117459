import Steward.Text.Regex

/-!
# What regular expressions match

An expression matches a part of a text, from one place of it to another. A place is given by what is
left of the text there.

* `Regex.Leads`: the places between which an expression matches.
* `Regex.mem_after_iff`, `Regex.isMatch_iff`: matching finds these places, and no others.
* `Regex.leads_sequence_reverse_cons`, `Regex.isMatch_anchored`: parts one after the other, and an
  expression between both anchors.
* `Regex.read_literal`: a character is read as itself however special it is.
-/

namespace Steward.Text.Regex

variable {text s t u : List Char} {k : Class} {r : Regex}

/-! ## Matching -/

/-- In a text, an expression matches from the place where `s` is left to the place where `t` is. -/
inductive Leads (text : List Char) : Regex → (s t : List Char) → Prop where
  | nothing {s : List Char} : Leads text .nothing s s
  | start : Leads text .start text text
  | finish : Leads text .finish [] []
  | one {k : Class} {c : Char} {s : List Char} : k.has c = true → Leads text (.one k) (c :: s) s
  | many {k : Class} {run s : List Char} : (∀ c ∈ run, k.has c = true) →
      Leads text (.many k) (run ++ s) s
  | skip {r : Regex} {s : List Char} : Leads text (.optional r) s s
  | take {r : Regex} {s t : List Char} : Leads text r s t → Leads text (.optional r) s t
  | both {first second : Regex} {s t u : List Char} : Leads text first s t →
      Leads text second t u → Leads text (.both first second) s u

theorem leads_nothing_iff : Leads text .nothing s t ↔ t = s := by
  constructor
  · intro h
    cases h
    rfl
  · rintro rfl
    exact .nothing

theorem leads_start_iff : Leads text .start s t ↔ s = text ∧ t = text := by
  constructor
  · intro h
    cases h
    exact ⟨rfl, rfl⟩
  · rintro ⟨rfl, rfl⟩
    exact .start

theorem leads_finish_iff : Leads text .finish s t ↔ s = [] ∧ t = [] := by
  constructor
  · intro h
    cases h
    exact ⟨rfl, rfl⟩
  · rintro ⟨rfl, rfl⟩
    exact .finish

theorem leads_one_iff : Leads text (.one k) s t ↔ ∃ c, s = c :: t ∧ k.has c = true := by
  constructor
  · intro h
    cases h with
    | one hc => exact ⟨_, rfl, hc⟩
  · rintro ⟨c, rfl, hc⟩
    exact .one hc

theorem leads_many_iff :
    Leads text (.many k) s t ↔ ∃ run, s = run ++ t ∧ ∀ c ∈ run, k.has c = true := by
  constructor
  · intro h
    cases h with
    | many hrun => exact ⟨_, rfl, hrun⟩
  · rintro ⟨run, rfl, hrun⟩
    exact .many hrun

theorem leads_optional_iff : Leads text (.optional r) s t ↔ t = s ∨ Leads text r s t := by
  constructor
  · intro h
    cases h with
    | skip => exact .inl rfl
    | take h => exact .inr h
  · rintro (rfl | h)
    · exact .skip
    · exact .take h

theorem leads_both_iff {first second : Regex} :
    Leads text (.both first second) s u ↔ ∃ t, Leads text first s t ∧ Leads text second t u := by
  constructor
  · intro h
    cases h with
    | both h h' => exact ⟨_, h, h'⟩
  · rintro ⟨t, h, h'⟩
    exact .both h h'

/-- Nothing of a text is read twice, so what is left is an end of what was left before. -/
theorem Leads.isSuffix (h : Leads text r s t) : t <:+ s := by
  induction h with
  | nothing => exact List.suffix_rfl
  | start => exact List.suffix_rfl
  | finish => exact List.suffix_rfl
  | one _ => exact List.suffix_cons ..
  | many _ => exact List.suffix_append ..
  | skip => exact List.suffix_rfl
  | take _ ih => exact ih
  | both _ _ ih ih' => exact ih'.trans ih

theorem mem_afterRun_iff : t ∈ k.afterRun s ↔ ∃ run, s = run ++ t ∧ ∀ c ∈ run, k.has c = true := by
  induction s with
  | nil =>
    simp only [Class.afterRun, List.mem_singleton]
    constructor
    · rintro rfl
      exact ⟨[], rfl, by simp⟩
    · rintro ⟨run, hs, -⟩
      exact (List.append_eq_nil_iff.1 hs.symm).2
  | cons c s ih =>
    have hnone : ∀ rest, rest = c :: s → ∃ run, c :: s = run ++ rest ∧ ∀ d ∈ run, k.has d = true :=
      fun rest h => ⟨[], h.symm, by simp⟩
    rw [Class.afterRun]
    split
    · next hc =>
      rw [List.mem_append, ih, List.mem_singleton]
      constructor
      · rintro (⟨run, rfl, hrun⟩ | h)
        · exact ⟨c :: run, rfl, List.forall_mem_cons.2 ⟨hc, hrun⟩⟩
        · exact hnone t h
      · rintro ⟨run, hs, hrun⟩
        cases run with
        | nil => exact .inr hs.symm
        | cons d run =>
          obtain ⟨rfl, rfl⟩ := List.cons.inj hs
          exact .inl ⟨run, rfl, (List.forall_mem_cons.1 hrun).2⟩
    · next hc =>
      rw [List.mem_singleton]
      constructor
      · exact hnone t
      · rintro ⟨run, hs, hrun⟩
        cases run with
        | nil => exact hs.symm
        | cons d run =>
          obtain ⟨rfl, rfl⟩ := List.cons.inj hs
          exact absurd (hrun c List.mem_cons_self) hc

/-- What may be left after an expression are the places that it leads to. -/
theorem mem_after_iff (hs : s <:+ text) : t ∈ r.after text.length s ↔ Leads text r s t := by
  induction r generalizing s t with
  | nothing => rw [after, List.mem_singleton, leads_nothing_iff]
  | start =>
    have hwhole : s.length = text.length ↔ s = text :=
      ⟨hs.eq_of_length, fun h => congrArg List.length h⟩
    rw [after, leads_start_iff]
    by_cases h : s = text
    · subst h
      simp
    · simp [hwhole, h]
  | finish =>
    rw [after, leads_finish_iff]
    cases s <;> simp
  | one k =>
    rw [leads_one_iff]
    cases s with
    | nil => simp [after]
    | cons c s =>
      rw [after]
      by_cases hc : k.has c = true
      · rw [if_pos hc, List.mem_singleton]
        constructor
        · rintro rfl
          exact ⟨c, rfl, hc⟩
        · rintro ⟨d, hs, -⟩
          exact (List.cons.inj hs).2.symm
      · rw [if_neg hc]
        constructor
        · intro h
          cases h
        · rintro ⟨d, hs, hd⟩
          obtain ⟨rfl, -⟩ := List.cons.inj hs
          exact absurd hd hc
  | many k => rw [after, mem_afterRun_iff, leads_many_iff]
  | optional r ih => rw [after, List.mem_cons, ih hs, leads_optional_iff]
  | both first second ih ih' =>
    rw [after, List.mem_eraseDups, List.mem_flatMap, leads_both_iff]
    constructor
    · rintro ⟨u, hu, ht⟩
      have hfirst := (ih hs).1 hu
      exact ⟨u, hfirst, (ih' (hfirst.isSuffix.trans hs)).1 ht⟩
    · rintro ⟨u, hfirst, hsecond⟩
      exact ⟨u, (ih hs).2 hfirst, (ih' (hfirst.isSuffix.trans hs)).2 hsecond⟩

theorem isMatch_iff : r.isMatch text = true ↔ ∃ s t, s <:+ text ∧ Leads text r s t := by
  have hplace : ∀ n, (!(r.after text.length (text.drop n)).isEmpty) = true ↔
      ∃ t, Leads text r (text.drop n) t := by
    intro n
    rw [Bool.not_eq_true', List.isEmpty_eq_false_iff_exists_mem]
    exact exists_congr fun t => mem_after_iff (List.drop_suffix n text)
  rw [isMatch, List.any_eq_true]
  constructor
  · rintro ⟨n, -, hn⟩
    obtain ⟨t, ht⟩ := (hplace n).1 hn
    exact ⟨_, t, List.drop_suffix n text, ht⟩
  · rintro ⟨s, t, ⟨before, rfl⟩, ht⟩
    refine ⟨before.length, ?_, (hplace _).2 ⟨t, ?_⟩⟩
    · rw [List.mem_range, List.length_append]
      omega
    · rwa [List.drop_left]

/-! ## Parts one after the other -/

theorem leads_sequence_append {later earlier : List Regex} :
    Leads text (sequence (later ++ earlier)) s u ↔
      ∃ t, Leads text (sequence earlier) s t ∧ Leads text (sequence later) t u := by
  induction later generalizing u with
  | nil => simp [sequence, leads_nothing_iff]
  | cons r later ih =>
    rw [List.cons_append, sequence, sequence, leads_both_iff]
    constructor
    · rintro ⟨v, hv, hr⟩
      obtain ⟨t, ht, hlater⟩ := ih.1 hv
      exact ⟨t, ht, .both hlater hr⟩
    · rintro ⟨t, ht, hboth⟩
      obtain ⟨v, hlater, hr⟩ := leads_both_iff.1 hboth
      exact ⟨v, ih.2 ⟨t, ht, hlater⟩, hr⟩

theorem leads_sequence_singleton : Leads text (sequence [r]) s t ↔ Leads text r s t := by
  simp [sequence, leads_both_iff, leads_nothing_iff]

/-- The first part leads to where the others start. -/
theorem leads_sequence_reverse_cons {rs : List Regex} :
    Leads text (sequence (r :: rs).reverse) s u ↔
      ∃ t, Leads text r s t ∧ Leads text (sequence rs.reverse) t u := by
  simp only [List.reverse_cons, leads_sequence_append, leads_sequence_singleton]

/-- Between the anchors an expression has to match the whole text. -/
theorem isMatch_anchored {parts : List Regex} :
    (sequence (finish :: (parts ++ [start]))).isMatch text = true ↔
      Leads text (sequence parts) text [] := by
  rw [isMatch_iff]
  constructor
  · rintro ⟨s, t, -, h⟩
    obtain ⟨u, hu, hfinish⟩ := leads_both_iff.1 h
    obtain ⟨v, hstart, hparts⟩ := leads_sequence_append.1 hu
    obtain ⟨rfl, -⟩ := leads_finish_iff.1 hfinish
    obtain ⟨-, rfl⟩ := leads_start_iff.1 (leads_sequence_singleton.1 hstart)
    exact hparts
  · intro h
    refine ⟨text, [], List.suffix_rfl, .both (leads_sequence_append.2 ⟨text, ?_, h⟩) .finish⟩
    exact leads_sequence_singleton.2 .start

/-! ## Reading -/

variable {inner : List Regex} {outer : List (List Regex)}

theorem not_mem_openers {c : Char} (h : c ∉ specials) : c ∉ openers := by
  have hall : openers.all (specials.contains ·) = true := by decide
  intro hc
  exact h (List.contains_iff_mem.1 (List.all_eq_true.1 hall c hc))

/-- A character is read as itself, with a backslash or without. -/
theorem read_literal (c : Char) :
    read inner outer (literal c ++ s) = read (one (.only c) :: inner) outer s := by
  unfold literal
  by_cases h : c ∈ specials
  · have hspecial : specials.contains c = true := List.contains_iff_mem.2 h
    rw [if_pos hspecial]
    show (if specials.contains c then read (one (.only c) :: inner) outer s else none) = _
    rw [if_pos hspecial]
  · have hplain : ¬ specials.contains c = true := fun hc => h (List.contains_iff_mem.1 hc)
    have hopen : ¬ openers.contains c = true :=
      fun hc => not_mem_openers h (List.contains_iff_mem.1 hc)
    rw [if_neg hplain, List.singleton_append, read, if_neg hopen]
    -- No other clause of the reader applies, since it is for a special character.
    all_goals
      intros
      subst_vars
      exact h (by decide)

end Steward.Text.Regex
