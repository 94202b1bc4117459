import Mathlib.Data.List.Forall2
import Steward.Lint.Config
import Steward.Proofs.Text.Regex

/-!
# What path patterns cover

A pattern is read from left to right, and each of its parts stands for some texts. The expression
that is written for a pattern always reads back as these parts one after the other, so that every
pattern is taken, and it matches the paths that the parts cover.

* `Glob.Word`: the texts that a pattern stands for.
* `Glob.Covers`: the paths that it covers: a word of it, at some depth, or what is below one.
* `Glob.IsStripped`, `Glob.IsForward`: how patterns and paths are written when they are matched.
* `Glob.regex?_eq`, `Glob.isMatch_regexOf_iff`: the expression of a pattern, and what it matches.
* `Config.patterns_cover`: the files that a configuration does not lint.
-/

namespace Steward.Lint

open Text

namespace Glob

/-! ## Words -/

/-- The texts that a pattern stands for. -/
inductive Word : (glob text : List Char) → Prop where
  | nil : Word [] []
  | directories {glob d m : List Char} : d = [] ∨ d.getLast? = some '/' → Word glob m →
      Word ('*' :: '*' :: '/' :: glob) (d ++ m)
  | anything {glob a m : List Char} : glob.head? ≠ some '/' → Word glob m →
      Word ('*' :: '*' :: glob) (a ++ m)
  | name {glob a m : List Char} : glob.head? ≠ some '*' → '/' ∉ a → Word glob m →
      Word ('*' :: glob) (a ++ m)
  | one {glob m : List Char} {c : Char} : c ≠ '/' → Word glob m → Word ('?' :: glob) (c :: m)
  | char {glob m : List Char} {c : Char} : c ≠ '*' → c ≠ '?' → Word glob m →
      Word (c :: glob) (c :: m)

/-- The paths that a pattern covers. One without a slash covers names at any depth. -/
def Covers (glob path : List Char) : Prop :=
  ∃ before m below, path = before ++ m ++ below ∧ Word glob m ∧
    (before = [] ∨ '/' ∉ glob ∧ before.getLast? = some '/') ∧
    (below = [] ∨ below.head? = some '/')

/-- What is left of a pattern or of a path without the words `./` at its start. -/
def IsStripped (s rest : List Char) : Prop :=
  (∃ n, s = (List.replicate n ['.', '/']).flatten ++ rest) ∧ ¬['.', '/'] <+: rest

/-- A path with a slash in the place of each backslash. -/
def IsForward (path forward : List Char) : Prop :=
  List.Forall₂ (fun c d => c = '\\' ∧ d = '/' ∨ c ≠ '\\' ∧ d = c) path forward

variable {glob m s t : List Char}

theorem word_directories_iff : Word ('*' :: '*' :: '/' :: glob) m ↔
    ∃ d rest, m = d ++ rest ∧ (d = [] ∨ d.getLast? = some '/') ∧ Word glob rest := by
  constructor
  · intro h
    cases h with
    | directories hd h => exact ⟨_, _, rfl, hd, h⟩
    | anything hslash _ => exact absurd rfl hslash
    | name hstar _ _ => exact absurd rfl hstar
    | char hstar _ _ => exact absurd rfl hstar
  · rintro ⟨d, rest, rfl, hd, h⟩
    exact .directories hd h

theorem word_anything_iff (hslash : glob.head? ≠ some '/') : Word ('*' :: '*' :: glob) m ↔
    ∃ a rest, m = a ++ rest ∧ True ∧ Word glob rest := by
  constructor
  · intro h
    cases h with
    | directories _ _ => exact absurd rfl hslash
    | anything _ h => exact ⟨_, _, rfl, trivial, h⟩
    | name hstar _ _ => exact absurd rfl hstar
    | char hstar _ _ => exact absurd rfl hstar
  · rintro ⟨a, rest, rfl, -, h⟩
    exact .anything hslash h

theorem word_name_iff (hstar : glob.head? ≠ some '*') : Word ('*' :: glob) m ↔
    ∃ a rest, m = a ++ rest ∧ '/' ∉ a ∧ Word glob rest := by
  constructor
  · intro h
    cases h with
    | directories _ _ => exact absurd rfl hstar
    | anything _ _ => exact absurd rfl hstar
    | name _ ha h => exact ⟨_, _, rfl, ha, h⟩
    | char hstar _ _ => exact absurd rfl hstar
  · rintro ⟨a, rest, rfl, ha, h⟩
    exact .name hstar ha h

theorem word_one_iff : Word ('?' :: glob) m ↔
    ∃ a rest, m = a ++ rest ∧ (∃ c, a = [c] ∧ c ≠ '/') ∧ Word glob rest := by
  constructor
  · intro h
    cases h with
    | one hc h => exact ⟨[_], _, rfl, ⟨_, rfl, hc⟩, h⟩
    | char _ hmark _ => exact absurd rfl hmark
  · rintro ⟨_, rest, rfl, ⟨c, rfl, hc⟩, h⟩
    exact .one hc h

theorem word_char_iff {c : Char} (hstar : c ≠ '*') (hmark : c ≠ '?') : Word (c :: glob) m ↔
    ∃ a rest, m = a ++ rest ∧ a = [c] ∧ Word glob rest := by
  constructor
  · intro h
    cases h with
    | directories _ _ => exact absurd rfl hstar
    | anything _ _ => exact absurd rfl hstar
    | name _ _ _ => exact absurd rfl hstar
    | one _ _ => exact absurd rfl hmark
    | char _ _ h => exact ⟨[c], _, rfl, rfl, h⟩
  · rintro ⟨_, rest, rfl, rfl, h⟩
    exact .char hstar hmark h

/-! ## Expressions -/

/-- The expression written as `Glob.directories`. -/
def directoriesRegex : Regex := .optional (.sequence [.one (.only '/'), .many .any])

/-- The expression written as `Glob.below`. -/
def belowRegex : Regex := .optional (.sequence [.many .any, .one (.only '/')])

/-- The expressions of the parts of a pattern, in their order. -/
def parts : List Char → List Regex
  | [] => []
  | '*' :: '*' :: '/' :: rest => directoriesRegex :: parts rest
  | '*' :: '*' :: rest => .many .any :: parts rest
  | '*' :: rest => .many (.except '/') :: parts rest
  | '?' :: rest => .one (.except '/') :: parts rest
  | c :: rest => .one (.only c) :: parts rest

/-- The expressions of a pattern between the anchors. -/
def allParts (glob : List Char) : List Regex :=
  (if glob.contains '/' then [] else [directoriesRegex]) ++ parts glob ++ [belowRegex]

/-- The regular expression of a pattern. -/
def regexOf (glob : List Char) : Regex :=
  .sequence (.finish :: ((allParts glob).reverse ++ [.start]))

section
variable {inner : List Regex} {outer : List (List Regex)}

theorem read_directories : Regex.read inner outer (directories ++ s) =
    Regex.read (directoriesRegex :: inner) outer s := rfl

theorem read_body :
    Regex.read inner outer (body glob ++ s) =
      Regex.read ((parts glob).reverse ++ inner) outer s := by
  induction glob using body.induct generalizing inner with
  | case1 => rfl
  | case2 rest ih =>
    rw [body, List.append_assoc, read_directories, ih]
    simp [parts]
  | case3 rest hslash ih =>
    rw [body, parts, List.reverse_cons, List.append_assoc]
    · exact ih
    · exact hslash
    · exact hslash
  | case4 rest hslash hstar ih =>
    rw [body, parts, List.reverse_cons, List.append_assoc]
    · exact ih
    · exact hslash
    · exact hstar
    · exact hslash
    · exact hstar
  | case5 rest ih =>
    rw [body, parts, List.reverse_cons, List.append_assoc]
    exact ih
  | case6 c rest h1 h2 h3 h4 ih =>
    rw [body, parts, List.reverse_cons, List.append_assoc, List.append_assoc, Regex.read_literal]
    · exact ih
    all_goals assumption
end

/-- Every pattern is written as an expression that is read. -/
theorem regex?_eq (written : String) :
    regex? written = some (regexOf (dropHere written.toList)) := by
  have hfront : ∀ glob : List Char,
      Regex.read [.start] [] ((if glob.contains '/' then [] else directories) ++
          (body glob ++ (below ++ ['$']))) =
        Regex.read ((if glob.contains '/' then [] else [directoriesRegex]) ++ [.start]) []
          (body glob ++ (below ++ ['$'])) := by
    intro glob
    split
    · rfl
    · exact read_directories
  have hend : ∀ inner, Regex.read inner [] (below ++ ['$']) =
      some (.sequence (.finish :: belowRegex :: inner)) := fun _ => rfl
  show Regex.read [.start] [] (_ ++ _ ++ _ ++ _) = _
  rw [List.append_assoc, List.append_assoc, hfront, read_body, hend, regexOf, allParts]
  split <;> simp

/-! ## Matches -/

variable {text : List Char}

open Regex (Leads sequence)

/-- Text without a line feed is of the characters that a dot stands for. -/
theorem any_has {run : List Char} (h : '\n' ∉ run) : ∀ c ∈ run, Regex.Class.any.has c = true := by
  intro c hc
  have hne : c ≠ '\n' := fun heq => h (heq ▸ hc)
  simpa [Regex.Class.has] using hne

theorem leads_anything_iff (hs : '\n' ∉ s) :
    Leads text (.many .any) s t ↔ ∃ a, s = a ++ t ∧ True := by
  rw [Regex.leads_many_iff]
  constructor
  · rintro ⟨a, rfl, -⟩
    exact ⟨a, rfl, trivial⟩
  · rintro ⟨a, rfl, -⟩
    exact ⟨a, rfl, any_has fun h => hs (List.mem_append_left t h)⟩

theorem leads_name_iff : Leads text (.many (.except '/')) s t ↔ ∃ a, s = a ++ t ∧ '/' ∉ a := by
  rw [Regex.leads_many_iff]
  refine exists_congr fun a => and_congr_right fun _ => ?_
  constructor
  · intro h hslash
    have := h '/' hslash
    simp [Regex.Class.has] at this
  · intro h c hc
    have hne : c ≠ '/' := fun heq => h (heq ▸ hc)
    simpa [Regex.Class.has] using hne

theorem leads_one_iff :
    Leads text (.one (.except '/')) s t ↔ ∃ a, s = a ++ t ∧ ∃ c, a = [c] ∧ c ≠ '/' := by
  rw [Regex.leads_one_iff]
  constructor
  · rintro ⟨c, rfl, hc⟩
    exact ⟨[c], rfl, c, rfl, by simpa [Regex.Class.has] using hc⟩
  · rintro ⟨_, rfl, c, rfl, hc⟩
    exact ⟨c, rfl, by simpa [Regex.Class.has] using hc⟩

theorem leads_char_iff {c : Char} :
    Leads text (.one (.only c)) s t ↔ ∃ a, s = a ++ t ∧ a = [c] := by
  rw [Regex.leads_one_iff]
  constructor
  · rintro ⟨d, rfl, hd⟩
    obtain rfl : d = c := by simpa [Regex.Class.has] using hd
    exact ⟨[d], rfl, rfl⟩
  · rintro ⟨_, rfl, rfl⟩
    exact ⟨c, rfl, by simp [Regex.Class.has]⟩

theorem leads_directories_iff (hs : '\n' ∉ s) : Leads text directoriesRegex s t ↔
    ∃ d, s = d ++ t ∧ (d = [] ∨ d.getLast? = some '/') := by
  have hsteps : Leads text (sequence [.one (.only '/'), .many .any]) s t ↔
      ∃ u, Leads text (.many .any) s u ∧ Leads text (.one (.only '/')) u t := by
    rw [show [Regex.one (.only '/'), .many .any] = [.many .any, .one (.only '/')].reverse from rfl,
      Regex.leads_sequence_reverse_cons, List.reverse_singleton]
    simp only [Regex.leads_sequence_singleton]
  rw [directoriesRegex, Regex.leads_optional_iff, hsteps]
  constructor
  · rintro (rfl | ⟨u, hrun, hslash⟩)
    · exact ⟨[], rfl, .inl rfl⟩
    · obtain ⟨run, rfl, -⟩ := (leads_anything_iff hs).1 hrun
      obtain ⟨_, rfl, rfl⟩ := leads_char_iff.1 hslash
      exact ⟨run ++ ['/'], by simp, .inr (by simp)⟩
  · rintro ⟨d, rfl, rfl | hd⟩
    · exact .inl rfl
    · obtain ⟨run, rfl⟩ := List.getLast?_eq_some_iff.1 hd
      refine .inr ⟨'/' :: t, (leads_anything_iff hs).2 ⟨run, by simp, trivial⟩, ?_⟩
      exact leads_char_iff.2 ⟨['/'], rfl, rfl⟩

theorem leads_below_iff (hs : '\n' ∉ s) : Leads text belowRegex s t ↔
    ∃ b, s = b ++ t ∧ (b = [] ∨ b.head? = some '/') := by
  have hsteps : Leads text (sequence [.many .any, .one (.only '/')]) s t ↔
      ∃ u, Leads text (.one (.only '/')) s u ∧ Leads text (.many .any) u t := by
    rw [show [Regex.many .any, .one (.only '/')] = [.one (.only '/'), .many .any].reverse from rfl,
      Regex.leads_sequence_reverse_cons, List.reverse_singleton]
    simp only [Regex.leads_sequence_singleton]
  rw [belowRegex, Regex.leads_optional_iff, hsteps]
  constructor
  · rintro (rfl | ⟨u, hslash, hrun⟩)
    · exact ⟨[], rfl, .inl rfl⟩
    · obtain ⟨_, rfl, rfl⟩ := leads_char_iff.1 hslash
      obtain ⟨run, rfl, -⟩ := (leads_anything_iff fun h => hs (.tail _ h)).1 hrun
      exact ⟨'/' :: run, rfl, .inr rfl⟩
  · rintro ⟨b, rfl, rfl | hb⟩
    · exact .inl rfl
    · obtain ⟨run, rfl⟩ := List.head?_eq_some_iff.1 hb
      have hrun : '\n' ∉ run ++ t := fun h => hs (.tail _ h)
      exact .inr ⟨run ++ t, leads_char_iff.2 ⟨['/'], rfl, rfl⟩,
        (leads_anything_iff hrun).2 ⟨run, rfl, trivial⟩⟩

/-- If the first part stands for the texts of `P`, a pattern stands for these, each before a word of
the rest of the pattern. -/
theorem leads_cons_iff {r : Regex} {rs : List Regex} {whole : List Char} {P : List Char → Prop}
    (hs : '\n' ∉ s) (hpart : ∀ u, Leads text r s u ↔ ∃ d, s = d ++ u ∧ P d)
    (hword : ∀ m, Word whole m ↔ ∃ d rest, m = d ++ rest ∧ P d ∧ Word glob rest)
    (hrest : ∀ u, '\n' ∉ u →
      (Leads text (sequence rs.reverse) u t ↔ ∃ m, u = m ++ t ∧ Word glob m)) :
    Leads text (sequence (r :: rs).reverse) s t ↔ ∃ m, s = m ++ t ∧ Word whole m := by
  rw [Regex.leads_sequence_reverse_cons]
  constructor
  · rintro ⟨u, hr, hrs⟩
    obtain ⟨d, rfl, hd⟩ := (hpart u).1 hr
    obtain ⟨rest, rfl, hm⟩ := (hrest u fun h => hs (List.mem_append_right d h)).1 hrs
    exact ⟨d ++ rest, by simp, (hword _).2 ⟨d, rest, rfl, hd, hm⟩⟩
  · rintro ⟨m, rfl, hm⟩
    obtain ⟨d, rest, rfl, hd, hm⟩ := (hword m).1 hm
    have hu : '\n' ∉ rest ++ t := fun h => hs (by simp_all)
    exact ⟨rest ++ t, (hpart _).2 ⟨d, by simp, hd⟩, (hrest _ hu).2 ⟨rest, rfl, hm⟩⟩

theorem head?_ne_of_forall {c : Char} (h : ∀ rest, s = c :: rest → False) : s.head? ≠ some c := by
  intro hc
  obtain ⟨rest, hrest⟩ := List.head?_eq_some_iff.1 hc
  exact h rest hrest

/-- The parts of a pattern match its words. -/
theorem leads_parts_iff (hs : '\n' ∉ s) :
    Leads text (sequence (parts glob).reverse) s t ↔ ∃ m, s = m ++ t ∧ Word glob m := by
  induction glob using parts.induct generalizing s with
  | case1 =>
    show Leads text .nothing s t ↔ _
    rw [Regex.leads_nothing_iff]
    constructor
    · rintro rfl
      exact ⟨[], rfl, .nil⟩
    · rintro ⟨m, rfl, hm⟩
      cases hm
      rfl
  | case2 rest ih =>
    rw [parts]
    exact leads_cons_iff hs (fun _ => leads_directories_iff hs) (fun _ => word_directories_iff)
      fun _ => ih
  | case3 rest hslash ih =>
    rw [parts]
    · exact leads_cons_iff hs (fun _ => leads_anything_iff hs)
        (fun _ => word_anything_iff (head?_ne_of_forall hslash)) fun _ => ih
    · exact hslash
  | case4 rest hslash hstar ih =>
    rw [parts]
    · exact leads_cons_iff hs (fun _ => leads_name_iff)
        (fun _ => word_name_iff (head?_ne_of_forall hstar)) fun _ => ih
    · exact hslash
    · exact hstar
  | case5 rest ih =>
    rw [parts]
    exact leads_cons_iff hs (fun _ => leads_one_iff) (fun _ => word_one_iff) fun _ => ih
  | case6 c rest h1 h2 h3 h4 ih =>
    rw [parts]
    · exact leads_cons_iff hs (fun _ => leads_char_iff) (fun _ => word_char_iff h3 h4) fun _ => ih
    all_goals assumption

/-- What may stand before a word of a pattern. -/
theorem leads_front_iff (hs : '\n' ∉ s) :
    Leads text (sequence (if glob.contains '/' then [] else [directoriesRegex]).reverse) s t ↔
      ∃ before, s = before ++ t ∧ (before = [] ∨ '/' ∉ glob ∧ before.getLast? = some '/') := by
  by_cases h : '/' ∈ glob
  · have hnil : Leads text (sequence ([] : List Regex).reverse) s t ↔ t = s :=
      Regex.leads_nothing_iff
    rw [if_pos (List.contains_iff_mem.2 h), hnil]
    simp [h, eq_comm]
  · have hno : ¬ glob.contains '/' = true := fun hc => h (List.contains_iff_mem.1 hc)
    rw [if_neg hno, List.reverse_singleton, Regex.leads_sequence_singleton,
      leads_directories_iff hs]
    simp [h]

/-- The expression of a pattern matches the paths that the pattern covers. -/
theorem isMatch_regexOf_iff {path : List Char} (hpath : '\n' ∉ path) :
    (regexOf glob).isMatch path = true ↔ Covers glob path := by
  rw [regexOf, Regex.isMatch_anchored, allParts, List.reverse_append, List.reverse_append,
    List.reverse_singleton, Regex.leads_sequence_append]
  simp only [Regex.leads_sequence_append, Regex.leads_sequence_singleton]
  constructor
  · rintro ⟨t, ⟨s, hfront, hparts⟩, hbelow⟩
    obtain ⟨before, rfl, hbefore⟩ := (leads_front_iff hpath).1 hfront
    have hs : '\n' ∉ s := fun h => hpath (List.mem_append_right before h)
    obtain ⟨m, rfl, hm⟩ := (leads_parts_iff hs).1 hparts
    obtain ⟨below, rfl, hend⟩ :=
      (leads_below_iff fun h => hs (List.mem_append_right m h)).1 hbelow
    exact ⟨before, m, below, by simp, hm, hbefore, hend⟩
  · rintro ⟨before, m, below, rfl, hm, hbefore, hbelow⟩
    have hs : '\n' ∉ m ++ below := by simp_all
    have ht : '\n' ∉ below := by simp_all
    refine ⟨below, ⟨m ++ below, ?_, (leads_parts_iff hs).2 ⟨m, rfl, hm⟩⟩, ?_⟩
    · exact (leads_front_iff hpath).2 ⟨before, by simp, hbefore⟩
    · exact (leads_below_iff ht).2 ⟨below, by simp, hbelow⟩

/-! ## Paths -/

theorem dropHere_eq_self (h : ¬['.', '/'] <+: s) : dropHere s = s := by
  rw [dropHere]
  rintro rest rfl
  exact h ⟨rest, rfl⟩

theorem isStripped_dropHere (s : List Char) : IsStripped s (dropHere s) := by
  induction s using dropHere.induct with
  | case1 rest ih =>
    obtain ⟨⟨n, hn⟩, hrest⟩ := ih
    refine ⟨⟨n + 1, ?_⟩, hrest⟩
    rw [dropHere, List.replicate_succ, List.flatten_cons, List.append_assoc, ← hn]
    rfl
  | case2 s h =>
    have hstart : ¬['.', '/'] <+: s := fun ⟨rest, hs⟩ => h rest hs.symm
    rw [dropHere_eq_self hstart]
    exact ⟨⟨0, rfl⟩, hstart⟩

/-- There is one text that is left. -/
theorem dropHere_eq_iff {rest : List Char} : dropHere s = rest ↔ IsStripped s rest := by
  constructor
  · rintro rfl
    exact isStripped_dropHere s
  · rintro ⟨⟨n, rfl⟩, hrest⟩
    induction n with
    | zero => exact dropHere_eq_self hrest
    | succ n ih =>
      rw [List.replicate_succ, List.flatten_cons]
      exact ih

theorem isForward_iff {path forward : List Char} : IsForward path forward ↔
    path.map (fun c => if c = '\\' then '/' else c) = forward := by
  rw [← List.forall₂_eq_eq_eq, List.forall₂_map_left_iff, IsForward]
  have hchar : ∀ c d : Char, (c = '\\' ∧ d = '/' ∨ c ≠ '\\' ∧ d = c) ↔
      (if c = '\\' then '/' else c) = d := by
    intro c d
    split
    · next h => simp [h, eq_comm]
    · next h => simp [h, eq_comm]
  simp only [hchar]

/-- A path is matched with slashes for its backslashes and without `./` at its start. -/
theorem normal_eq_iff {path : String} {plain : List Char} :
    normal path = plain ↔ ∃ forward, IsForward path.toList forward ∧ IsStripped forward plain := by
  simp only [isForward_iff, ← dropHere_eq_iff, exists_eq_left', normal]

theorem IsStripped.subset {rest : List Char} (h : IsStripped s rest) : rest ⊆ s := by
  obtain ⟨⟨n, rfl⟩, -⟩ := h
  exact List.subset_append_right _ _

theorem lineFeed_not_mem_normal {path : String} (h : '\n' ∉ path.toList) :
    '\n' ∉ normal path := by
  intro hmem
  obtain ⟨c, hc, heq⟩ := List.mem_map.1 ((isStripped_dropHere _).subset hmem)
  by_cases hback : c = '\\'
  · rw [if_pos hback] at heq
    exact absurd heq (by decide)
  · rw [if_neg hback] at heq
    exact h (heq ▸ hc)

end Glob

/-! ## Configurations -/

namespace Config

variable {c : Config}

/-- Every pattern is taken, and what is not linted then is what was not linted before and what the
pattern's expression matches. -/
theorem exists_withIgnored (c : Config) (written : String) :
    ∃ c', c.withIgnored written = .ok c' ∧
      c'.ignored.map (·.written) = c.ignored.map (·.written) ++ [written] ∧
      ∀ path, c'.ignores path =
        (c.ignores path ||
          (Glob.regexOf (dropHere written.toList)).isMatch (Glob.normal path)) := by
  have hregex := Glob.regex?_eq written
  refine ⟨{ c with ignored := c.ignored ++ [⟨written, _, hregex⟩] }, ?_, by simp, fun path => ?_⟩
  · unfold withIgnored
    split
    · next regex h =>
      obtain rfl : regex = _ := Option.some.inj (h.symm.trans hregex)
      rfl
    · next h => rw [hregex] at h; cases h
  · simp [ignores, List.any_append]

theorem exists_foldlM_withIgnored (c : Config) (patterns : List String) :
    ∃ c', patterns.foldlM withIgnored c = .ok c' ∧
      c'.ignored.map (·.written) = c.ignored.map (·.written) ++ patterns ∧
      ∀ path, c'.ignores path = true ↔ c.ignores path = true ∨ ∃ g ∈ patterns,
        (Glob.regexOf (dropHere g.toList)).isMatch (Glob.normal path) = true := by
  induction patterns generalizing c with
  | nil => exact ⟨c, rfl, by simp, by simp⟩
  | cons g patterns ih =>
    obtain ⟨c₁, hc₁, hwritten₁, hignores₁⟩ := c.exists_withIgnored g
    obtain ⟨c', hc', hwritten, hignores⟩ := ih c₁
    refine ⟨c', ?_, ?_, fun path => ?_⟩
    · rw [List.foldlM_cons, hc₁]
      exact hc'
    · rw [hwritten, hwritten₁, List.append_assoc, List.singleton_append]
    · rw [hignores, hignores₁, Bool.or_eq_true, or_assoc]
      simp

/-- All patterns are taken, whatever they hold, and a path without line feeds is not linted exactly
where one of them covers it, both read without the words `./` at their start and the path with
slashes for its backslashes. A further pattern is taken too, and what was not linted before is not
linted then. -/
theorem patterns_cover :
    (∀ patterns : List String, ∃ c, patterns.foldlM withIgnored {} = .ok c ∧
      c.ignored.map (·.written) = patterns ∧
      ∀ path : String, '\n' ∉ path.toList → (c.ignores path = true ↔
        ∃ g ∈ patterns, ∃ glob forward plain, Glob.IsStripped g.toList glob ∧
          Glob.IsForward path.toList forward ∧ Glob.IsStripped forward plain ∧
          Glob.Covers glob plain)) ∧
    ∀ (c : Config) (written : String), ∃ c', c.withIgnored written = .ok c' ∧
      ∀ path, c.ignores path = true → c'.ignores path = true := by
  constructor
  · intro patterns
    obtain ⟨c, hc, hwritten, hignores⟩ := exists_foldlM_withIgnored {} patterns
    refine ⟨c, hc, hwritten, fun path hpath => ?_⟩
    have hnone : ({} : Config).ignores path = false := rfl
    have hnormal := Glob.lineFeed_not_mem_normal hpath
    rw [hignores, hnone]
    simp only [Bool.false_eq_true, false_or, Glob.isMatch_regexOf_iff hnormal]
    refine exists_congr fun g => and_congr_right fun _ => ?_
    constructor
    · intro hcovers
      obtain ⟨forward, hforward, hplain⟩ := Glob.normal_eq_iff.1 (rfl : Glob.normal path = _)
      exact ⟨_, forward, _, Glob.isStripped_dropHere _, hforward, hplain, hcovers⟩
    · rintro ⟨glob, forward, plain, hglob, hforward, hplain, hcovers⟩
      rw [Glob.dropHere_eq_iff.2 hglob, Glob.normal_eq_iff.2 ⟨forward, hforward, hplain⟩]
      exact hcovers
  · intro c written
    obtain ⟨c', hc', -, hignores⟩ := c.exists_withIgnored written
    refine ⟨c', hc', fun path hpath => ?_⟩
    rw [hignores, hpath, Bool.true_or]

/-- A file in a folder whose name has a special character, of which only the pattern starts with
`./`, and a file of which only the path does. -/
theorem patterns_cover_special :
    ∃ c, ["././***.[a]", "src/?"].foldlM withIgnored {} = .ok c ∧
      '\n' ∉ "src\\b.[a]\\x".toList ∧ c.ignores "src\\b.[a]\\x" = true ∧
      '\n' ∉ ".\\./src\\b".toList ∧ c.ignores ".\\./src\\b" = true := by
  obtain ⟨c, hc, -, hignores⟩ := patterns_cover.1 ["././***.[a]", "src/?"]
  have hfolder : '\n' ∉ "src\\b.[a]\\x".toList := by decide
  have hfile : '\n' ∉ ".\\./src\\b".toList := by decide
  refine ⟨c, hc, hfolder, (hignores _ hfolder).2 ⟨"././***.[a]", by simp, ?_⟩,
    hfile, (hignores _ hfile).2 ⟨"src/?", by simp, ?_⟩⟩
  · refine ⟨"***.[a]".toList, "src/b.[a]/x".toList, "src/b.[a]/x".toList,
      ⟨⟨2, by decide⟩, by decide⟩, Glob.isForward_iff.2 (by decide),
      ⟨⟨0, by decide⟩, by decide⟩, ?_⟩
    refine ⟨['s', 'r', 'c', '/'], ['b', '.', '[', 'a', ']'], ['/', 'x'], by decide, ?_,
      .inr (by decide), .inr rfl⟩
    exact .anything (a := ['b']) (by decide) (.name (a := []) (by decide) (by simp)
      (.char (by decide) (by decide) (.char (by decide) (by decide) (.char (by decide) (by decide)
        (.char (by decide) (by decide) .nil)))))
  · refine ⟨"src/?".toList, "././src/b".toList, "src/b".toList, ⟨⟨0, by decide⟩, by decide⟩,
      Glob.isForward_iff.2 (by decide), ⟨⟨2, by decide⟩, by decide⟩, ?_⟩
    refine ⟨[], "src/b".toList, [], by decide, ?_, .inl rfl, .inl rfl⟩
    exact .char (by decide) (by decide) (.char (by decide) (by decide) (.char (by decide)
      (by decide) (.char (by decide) (by decide) (.one (by decide) .nil))))

end Config

end Steward.Lint
