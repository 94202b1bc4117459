import Steward.Output.Rustc
import Steward.Proofs.Output.Gathered
import Steward.Proofs.Text.Trim

/-!
# How the lines of the Rust compiler are written

The four kinds of lines that the reader of the compiler's output looks for, as they are written, and
that it takes these and no others.

* `header?_eq_some_iff`, `isSummary_iff`: headers and summaries.
* `place?_eq_some_iff`: places behind an arrow.
* `lint?_eq_some_iff`: lints that a line names.
-/

namespace Steward.Output.Rustc

open Text

/-! ## Written forms -/

/-- The words for the levels of headers. -/
inductive IsLevel : Annotation.Level → List Char → Prop where
  | error : IsLevel .error "error".toList
  | warning : IsLevel .warning "warning".toList

/-- A code in brackets, if there is one. -/
def bracketed : Option (List Char) → List Char
  | some code => '[' :: (code ++ [']'])
  | none => []

/-- A code that can stand in brackets. -/
def IsCode (code : List Char) : Prop := code ≠ [] ∧ ']' ∉ code

/-- The line `level[code]: message` or `level: message`. -/
structure IsHeader (line : List Char) (h : Header) : Prop where
  written : ∃ word, IsLevel h.level word ∧
    line = word ++ (bracketed h.code ++ (": ".toList ++ h.message))
  code : ∀ code, h.code = some code → IsCode code
  message : h.message ≠ []

/-- A text that goes on with `) generated 2 warnings`. -/
def IsCountTail (s : List Char) : Prop :=
  ∃ digits rest, s = ") generated ".toList ++ (digits ++ (" warning".toList ++ rest)) ∧
    digits ≠ [] ∧ ∀ c ∈ digits, isDecimal c = true

/-- A text that starts with the words of a summary. -/
inductive SumsUp : List Char → Prop where
  /-- The warnings of a crate, with its name between backticks and its kind in parentheses. -/
  | count {crate kind tail : List Char} (hcrate : crate ≠ [] ∧ '`' ∉ crate) (hkind : kind ≠ [])
      (htail : IsCountTail tail) : SumsUp ('`' :: (crate ++ ("` (".toList ++ (kind ++ tail))))
  | aborting (rest : List Char) : SumsUp ("aborting due to".toList ++ rest)
  | uncompiled (rest : List Char) : SumsUp ("could not compile".toList ++ rest)
  | failed (rest : List Char) : SumsUp ("build failed".toList ++ rest)

/-- The line `level: ` and the words of a summary. -/
def IsSummary (line : List Char) : Prop :=
  ∃ level word s, IsLevel level word ∧ line = word ++ (": ".toList ++ s) ∧ SumsUp s

/-- The line `--> file:line:column`, with blank characters around it. -/
def IsLocation (text file line column : List Char) : Prop :=
  ∃ lead place trail, text = lead ++ ("--> ".toList ++ (place ++ trail)) ∧
    (∀ c ∈ lead, isBlank c = true) ∧ (∀ c ∈ trail, isBlank c = true) ∧
    IsPlaceText place file line column

/-- The words of attributes that set a lint. -/
def lintWords : List (List Char) := ["warn".toList, "deny".toList, "forbid".toList]

/-- A text that starts with `#[warn(lint)]` or another attribute that sets a lint. -/
def IsAttribute (s lint : List Char) : Prop :=
  ∃ word ∈ lintWords, ∃ rest, s = "#[".toList ++ (word ++ '(' :: (lint ++ (")]".toList ++ rest))) ∧
    lint ≠ [] ∧ ∀ c ∈ lint, isWord c = true ∨ c = ':'

/-- The first attribute in the line that sets a lint sets this one. -/
def NamesLint (line lint : List Char) : Prop :=
  ∃ before s, line = before ++ s ∧ IsAttribute s lint ∧
    ∀ before' s' lint', line = before' ++ s' → IsAttribute s' lint' →
      before.length ≤ before'.length

/-! ## Headers -/

variable {line s rest : List Char} {level : Annotation.Level}

theorem level?_eq_some_iff :
    level? line = some (level, rest) ↔ ∃ word, IsLevel level word ∧ line = word ++ rest := by
  constructor
  · intro h
    rcases Option.or_eq_some_iff.1 h with h | ⟨-, h⟩
    · obtain ⟨rest, hrest, heq⟩ := Option.map_eq_some_iff.1 h
      obtain ⟨rfl, rfl⟩ := Prod.mk.inj heq
      exact ⟨_, .error, after?_eq_some_iff.1 hrest⟩
    · obtain ⟨rest, hrest, heq⟩ := Option.map_eq_some_iff.1 h
      obtain ⟨rfl, rfl⟩ := Prod.mk.inj heq
      exact ⟨_, .warning, after?_eq_some_iff.1 hrest⟩
  · rintro ⟨word, hword, rfl⟩
    cases hword <;> rfl

theorem code?_eq_some_iff {code : Option (List Char)} :
    code? s = some (code, rest) ↔ s = bracketed code ++ rest ∧ (∀ c, code = some c → IsCode c) ∧
      (code = none → rest.head? ≠ some '[') := by
  by_cases hs : ∃ more, s = '[' :: more
  · obtain ⟨more, rfl⟩ := hs
    constructor
    · intro h
      rw [code?] at h
      cases hcut : cut? [']'] more with
      | none => simp [hcut] at h
      | some parts =>
        simp only [hcut] at h
        obtain ⟨hne, heq⟩ := Option.ite_none_left_eq_some.1 h
        obtain ⟨rfl, rfl⟩ := Prod.mk.inj (Option.some.inj heq)
        obtain ⟨rfl, hcode⟩ := cut?_singleton_eq_some_iff.1 hcut
        refine ⟨by simp [bracketed], fun c hc => ?_, nofun⟩
        obtain rfl := Option.some.inj hc
        exact ⟨by simpa using hne, hcode⟩
    · rintro ⟨hs, hcode, hnone⟩
      cases code with
      | none =>
        obtain rfl : '[' :: more = rest := hs
        exact absurd rfl (hnone rfl)
      | some code =>
        obtain ⟨hne, hbracket⟩ := hcode code rfl
        obtain rfl : more = code ++ ']' :: rest := by simpa [bracketed] using hs
        rw [code?, cut?_singleton_eq_some_iff.2 ⟨rfl, hbracket⟩]
        simp [hne]
  · have hplain : code? s = some (none, s) := by
      unfold code?
      split
      · next more => exact absurd ⟨more, rfl⟩ hs
      · rfl
    rw [hplain]
    constructor
    · intro h
      obtain ⟨rfl, rfl⟩ := Prod.mk.inj (Option.some.inj h)
      refine ⟨rfl, nofun, fun _ hhead => hs ?_⟩
      obtain ⟨more, hmore⟩ := List.head?_eq_some_iff.1 hhead
      exact ⟨more, hmore⟩
    · rintro ⟨rfl, -, -⟩
      cases code with
      | none => rfl
      | some code => exact absurd ⟨_, rfl⟩ hs

theorem header?_eq_some_iff {h : Header} : header? line = some h ↔ IsHeader line h := by
  constructor
  · intro hheader
    obtain ⟨⟨level, s⟩, hlevel, hrest⟩ := Option.bind_eq_some_iff.1 hheader
    obtain ⟨⟨code, s'⟩, hcode, hrest⟩ := Option.bind_eq_some_iff.1 hrest
    obtain ⟨message, hmessage, htest⟩ := Option.bind_eq_some_iff.1 hrest
    obtain ⟨hne, heq⟩ := Option.ite_none_left_eq_some.1 htest
    obtain rfl := Option.some.inj heq
    obtain ⟨word, hword, rfl⟩ := level?_eq_some_iff.1 hlevel
    obtain ⟨rfl, hcodes, -⟩ := code?_eq_some_iff.1 hcode
    obtain rfl := after?_eq_some_iff.1 hmessage
    exact ⟨⟨word, hword, rfl⟩, hcodes, by simpa using hne⟩
  · rintro ⟨⟨word, hword, rfl⟩, hcodes, hne⟩
    obtain ⟨level, code, message⟩ := h
    have hcode : code? (bracketed code ++ (": ".toList ++ message)) =
        some (code, ": ".toList ++ message) :=
      code?_eq_some_iff.2 ⟨rfl, hcodes, fun _ => by simp⟩
    rw [header?, level?_eq_some_iff.2 ⟨word, hword, rfl⟩]
    simp only [hcode, Option.bind_eq_bind, Option.bind_some]
    change (after? ": ".toList (": ".toList ++ message)).bind _ = _
    rw [after?_append]
    simpa using hne

/-! ## Summaries -/

theorem isCount_iff : isCount s = true ↔ IsCountTail s := by
  constructor
  · intro h
    unfold isCount at h
    split at h
    · cases h
    · next more hmore =>
      simp only [Bool.and_eq_true, Bool.not_eq_true', List.isEmpty_eq_false_iff,
        startsWith_iff] at h
      obtain ⟨hne, rest, hrest⟩ := h
      refine ⟨more.takeWhile isDecimal, rest, ?_, hne, fun c hc => ?_⟩
      · rw [hrest, List.takeWhile_append_dropWhile]
        exact after?_eq_some_iff.1 hmore
      · exact List.all_eq_true.1 List.all_takeWhile c hc
  · rintro ⟨digits, rest, rfl, hne, hdigits⟩
    have htake : (digits ++ (" warning".toList ++ rest)).takeWhile isDecimal = digits := by
      rw [List.takeWhile_append_of_pos hdigits]
      simp [show isDecimal ' ' = false by decide]
    have hdrop : (digits ++ (" warning".toList ++ rest)).dropWhile isDecimal =
        " warning".toList ++ rest := by
      rw [List.dropWhile_append_of_pos hdigits]
      simp [show isDecimal ' ' = false by decide]
    have hstart : startsWith " warning".toList (" warning".toList ++ rest) = true :=
      startsWith_iff.2 ⟨rest, rfl⟩
    simp only [isCount, after?_append, htake, hdrop, hstart]
    simpa using hne

theorem hasCount_iff :
    hasCount s = true ↔ ∃ before tail, s = before ++ tail ∧ IsCountTail tail := by
  induction s with
  | nil =>
    simp only [hasCount, Bool.false_eq_true, false_iff]
    rintro ⟨before, tail, hs, digits, rest, rfl, -⟩
    simp at hs
  | cons c s ih =>
    rw [hasCount, Bool.or_eq_true, isCount_iff, ih]
    constructor
    · rintro (h | ⟨before, tail, rfl, h⟩)
      · exact ⟨[], _, rfl, h⟩
      · exact ⟨c :: before, tail, rfl, h⟩
    · rintro ⟨before, tail, hs, h⟩
      cases before with
      | nil => exact .inl (hs ▸ h)
      | cons d before => exact .inr ⟨before, tail, (List.cons.inj hs).2, h⟩

theorem isCrateSummary_iff : isCrateSummary s = true ↔
    ∃ crate kind tail, s = '`' :: (crate ++ ("` (".toList ++ (kind ++ tail))) ∧
      (crate ≠ [] ∧ '`' ∉ crate) ∧ kind ≠ [] ∧ IsCountTail tail := by
  constructor
  · intro h
    unfold isCrateSummary at h
    split at h
    · next more =>
      split at h
      · next crate more hcut =>
        rw [Bool.and_eq_true] at h
        obtain ⟨hne, h⟩ := h
        split at h
        · next c more hafter =>
          obtain ⟨before, tail, rfl, htail⟩ := hasCount_iff.1 h
          obtain ⟨rfl, hcrate⟩ := cut?_singleton_eq_some_iff.1 hcut
          refine ⟨crate, c :: before, tail, ?_, ⟨by simpa using hne, hcrate⟩,
            List.cons_ne_nil _ _, htail⟩
          rw [after?_eq_some_iff.1 hafter]
          rfl
        · cases h
      · cases h
    · cases h
  · rintro ⟨crate, kind, tail, rfl, ⟨hne, hcrate⟩, hkind, htail⟩
    obtain ⟨c, before, rfl⟩ := List.exists_cons_of_ne_nil hkind
    have hcut : cut? ['`'] (crate ++ ("` (".toList ++ (c :: before ++ tail))) =
        some (crate, " (".toList ++ (c :: (before ++ tail))) :=
      cut?_singleton_eq_some_iff.2 ⟨rfl, hcrate⟩
    have hcount : hasCount (before ++ tail) = true := hasCount_iff.2 ⟨before, tail, rfl, htail⟩
    have hafter : after? [' ', '('] (" (".toList ++ (c :: (before ++ tail))) =
        some (c :: (before ++ tail)) := after?_append _ _
    simp only [isCrateSummary, hcut, hafter, hcount]
    simpa using hne

theorem isSummary_iff : isSummary line = true ↔ IsSummary line := by
  have hsums : ∀ s, (isCrateSummary s || startsWith "aborting due to".toList s ||
      startsWith "could not compile".toList s || startsWith "build failed".toList s) = true ↔
        SumsUp s := by
    intro s
    simp only [Bool.or_eq_true, isCrateSummary_iff, startsWith_iff]
    constructor
    · rintro (((⟨crate, kind, tail, rfl, hcrate, hkind, htail⟩ | ⟨rest, rfl⟩) | ⟨rest, rfl⟩) |
        ⟨rest, rfl⟩)
      · exact .count hcrate hkind htail
      · exact .aborting rest
      · exact .uncompiled rest
      · exact .failed rest
    · intro h
      cases h with
      | count hcrate hkind htail => exact .inl (.inl (.inl ⟨_, _, _, rfl, hcrate, hkind, htail⟩))
      | aborting rest => exact .inl (.inl (.inr ⟨rest, rfl⟩))
      | uncompiled rest => exact .inl (.inr ⟨rest, rfl⟩)
      | failed rest => exact .inr ⟨rest, rfl⟩
  unfold isSummary
  constructor
  · intro h
    split at h
    · cases h
    · next s hs =>
      obtain ⟨⟨level, more⟩, hlevel, hcolon⟩ := Option.bind_eq_some_iff.1 hs
      obtain ⟨word, hword, rfl⟩ := level?_eq_some_iff.1 hlevel
      have hmore : more = ": ".toList ++ s := after?_eq_some_iff.1 hcolon
      exact ⟨level, word, s, hword, by rw [hmore], (hsums s).1 h⟩
  · rintro ⟨level, word, s, hword, rfl, h⟩
    have hcolon : after? [':', ' '] (": ".toList ++ s) = some s := after?_append _ _
    simp only [level?_eq_some_iff.2 ⟨word, hword, rfl⟩, Option.bind_some, hcolon]
    exact (hsums s).2 h

/-! ## Places -/

/-- A place has digits for both numbers. -/
theorem IsLocation.ne_nil {file line column : List Char} (h : IsLocation s file line column) :
    line ≠ [] ∧ column ≠ [] := by
  obtain ⟨lead, place, trail, -, -, -, hplace⟩ := h
  exact ⟨hplace.lines.1, hplace.columns.1⟩

theorem place?_eq_some_iff {p : Place} : place? s = some p ↔
    ∃ file line column, IsLocation s file line column ∧ p = .of file line column := by
  constructor
  · intro h
    obtain ⟨more, harrow, h⟩ := Option.bind_eq_some_iff.1 h
    obtain ⟨⟨file, line, column⟩, hplace, heq⟩ := Option.bind_eq_some_iff.1 h
    obtain rfl := Option.some.inj heq
    obtain ⟨⟨lead, hs, hlead⟩, -⟩ := trimStart_eq_iff.1 (after?_eq_some_iff.1 harrow)
    obtain ⟨trail, hmore, htrail⟩ := exists_trimEndBy_append isBlank more
    refine ⟨file, line, column, ⟨lead, trimEnd more, trail, ?_, hlead, htrail,
      cutPlace?_eq_some_iff_isPlaceText.1 hplace⟩, rfl⟩
    rw [hs, trimEnd, ← hmore]
  · rintro ⟨file, line, column, ⟨lead, place, trail, rfl, hlead, htrail, hplace⟩, rfl⟩
    have hstart : trimStart (lead ++ ("--> ".toList ++ (place ++ trail))) =
        "--> ".toList ++ (place ++ trail) :=
      trimStart_eq_iff.2 ⟨⟨lead, rfl, hlead⟩, fun c hc => by
        obtain rfl : '-' = c := Option.some.inj hc
        decide⟩
    have hend : trimEnd (place ++ trail) = place := hplace.trimEnd_append htrail
    rw [place?, hstart]
    change (after? "--> ".toList ("--> ".toList ++ (place ++ trail))).bind _ = _
    rw [after?_append, Option.bind_some]
    change (cutPlace? (trimEnd (place ++ trail))).bind _ = _
    rw [hend, cutPlace?_eq_some_iff_isPlaceText.2 hplace]
    rfl

/-! ## Lints -/

/-- Whether a character may stand in the name of a lint. -/
def isLintPart (c : Char) : Bool := isWord c || c = ':'

theorem isLintPart_iff {c : Char} : isLintPart c = true ↔ isWord c = true ∨ c = ':' := by
  simp [isLintPart]

theorem lintAt?_eq (s : List Char) : lintAt? s =
    (after? "#[".toList s).bind fun s =>
      (((after? "warn".toList s).or (after? "deny".toList s)).or (after? "forbid".toList s)).bind
        fun s => (after? ['('] s).bind fun s =>
          if (s.takeWhile isLintPart).isEmpty then none
          else (after? ")]".toList (s.dropWhile isLintPart)).map fun _ => s.takeWhile isLintPart :=
  rfl

theorem lintWord?_eq_some_iff :
    ((after? "warn".toList s).or (after? "deny".toList s)).or (after? "forbid".toList s) =
      some rest ↔ ∃ word ∈ lintWords, s = word ++ rest := by
  simp only [lintWords, List.mem_cons, List.not_mem_nil, or_false, exists_eq_or_imp, exists_eq_left]
  constructor
  · intro h
    rcases Option.or_eq_some_iff.1 h with h | ⟨-, h⟩
    · rcases Option.or_eq_some_iff.1 h with h | ⟨-, h⟩
      · exact .inl (after?_eq_some_iff.1 h)
      · exact .inr (.inl (after?_eq_some_iff.1 h))
    · exact .inr (.inr (after?_eq_some_iff.1 h))
  · rintro (rfl | rfl | rfl) <;> rfl

theorem lintAt?_eq_some_iff {lint : List Char} : lintAt? s = some lint ↔ IsAttribute s lint := by
  rw [lintAt?_eq]
  constructor
  · intro h
    obtain ⟨s₁, hopen, h⟩ := Option.bind_eq_some_iff.1 h
    obtain ⟨s₂, hword, h⟩ := Option.bind_eq_some_iff.1 h
    obtain ⟨s₃, hparen, h⟩ := Option.bind_eq_some_iff.1 h
    obtain ⟨hne, h⟩ := Option.ite_none_left_eq_some.1 h
    obtain ⟨rest, hclose, rfl⟩ := Option.map_eq_some_iff.1 h
    obtain ⟨word, hmem, rfl⟩ := lintWord?_eq_some_iff.1 hword
    refine ⟨word, hmem, rest, ?_, by simpa using hne, fun c hc => ?_⟩
    · rw [← after?_eq_some_iff.1 hclose, List.takeWhile_append_dropWhile,
        after?_eq_some_iff.1 hopen, after?_eq_some_iff.1 hparen]
      rfl
    · exact isLintPart_iff.1 (List.all_eq_true.1 List.all_takeWhile c hc)
  · rintro ⟨word, hmem, rest, rfl, hne, hlint⟩
    have hpart : ∀ c ∈ lint, isLintPart c = true := fun c hc => isLintPart_iff.2 (hlint c hc)
    have htake : (lint ++ (")]".toList ++ rest)).takeWhile isLintPart = lint := by
      rw [List.takeWhile_append_of_pos hpart]
      simp [show isLintPart ')' = false by decide]
    have hdrop : (lint ++ (")]".toList ++ rest)).dropWhile isLintPart = ")]".toList ++ rest := by
      rw [List.dropWhile_append_of_pos hpart]
      simp [show isLintPart ')' = false by decide]
    have hparen : after? ['('] ('(' :: (lint ++ (")]".toList ++ rest))) =
        some (lint ++ (")]".toList ++ rest)) := after?_append _ _
    rw [after?_append, Option.bind_some, lintWord?_eq_some_iff.2 ⟨word, hmem, rfl⟩,
      Option.bind_some, hparen, Option.bind_some, htake, hdrop, after?_append]
    simpa using hne

theorem not_isAttribute_nil {lint : List Char} : ¬IsAttribute [] lint := by
  rintro ⟨word, -, rest, h, -⟩
  simp at h

/-- The first attribute is at the start of the line, or else the first one behind its start. -/
theorem namesLint_cons_iff {c : Char} {line lint : List Char} : NamesLint (c :: line) lint ↔
    IsAttribute (c :: line) lint ∨
      (∀ lint', ¬IsAttribute (c :: line) lint') ∧ NamesLint line lint := by
  constructor
  · rintro ⟨before, s, hline, hs, hfirst⟩
    cases before with
    | nil => exact .inl (hline ▸ hs)
    | cons d before =>
      obtain ⟨rfl, rfl⟩ := List.cons.inj hline
      refine .inr ⟨fun lint' h => ?_, before, s, rfl, hs, fun before' s' lint' hline' hs' => ?_⟩
      · exact absurd (hfirst [] _ lint' rfl h) (by simp)
      · have hle := hfirst (c :: before') s' lint' (by rw [hline']; rfl) hs'
        exact Nat.le_of_succ_le_succ hle
  · rintro (h | ⟨hnone, before, s, rfl, hs, hfirst⟩)
    · exact ⟨[], _, rfl, h, fun before' _ _ _ _ => Nat.zero_le _⟩
    · refine ⟨c :: before, s, rfl, hs, fun before' s' lint' hline' hs' => ?_⟩
      cases before' with
      | nil =>
        exact absurd hs' (by rw [← show c :: (before ++ s) = s' from hline']; exact hnone lint')
      | cons d before' =>
        exact Nat.succ_le_succ (hfirst before' s' lint' (List.cons.inj hline').2 hs')

theorem lint?_eq_some_iff {line lint : List Char} :
    lint? line = some lint ↔ NamesLint line lint := by
  induction line with
  | nil =>
    simp only [lint?, reduceCtorEq, false_iff]
    rintro ⟨before, s, hline, hs, -⟩
    obtain ⟨-, rfl⟩ := List.append_eq_nil_iff.1 hline.symm
    exact not_isAttribute_nil hs
  | cons c line ih =>
    rw [lint?, Option.or_eq_some_iff, namesLint_cons_iff, ih, lintAt?_eq_some_iff]
    refine or_congr_right (and_congr_left fun _ => ?_)
    simp only [Option.eq_none_iff_forall_not_mem, Option.mem_def, lintAt?_eq_some_iff]

end Steward.Output.Rustc
