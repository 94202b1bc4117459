import Steward.Output.StackTrace
import Steward.Proofs.Output.Gathered
import Steward.Proofs.Text.Trim

/-!
# How the lines of stack traces are written

The lines that name an error and the two forms of frames, as they are written, and that the reader
of traces takes these and no others. A frame `fn (file:line:column)` is read as one, even if it
could be read as `file:line:column` as well.

* `header?_eq_some_iff`: lines that name an error.
* `place?_eq_some_iff`: frames.
* `IsOwn`, `dropScheme_eq_iff`, `isInternal_iff`: the file of a frame, and whether it is the
  program's own.
-/

namespace Steward.Output.StackTrace

open Text

/-! ## Written forms -/

/-- A text that is empty or an identifier. -/
def IsIdentifier (s : List Char) : Prop :=
  s = [] ∨ ∃ c rest, s = c :: rest ∧ isNameStart c = true ∧ ∀ d ∈ rest, isNamePart d = true

/-- The name of an error: `Error` or `Exception`, behind an identifier or nothing. -/
inductive IsErrorName : List Char → Prop where
  | error {s : List Char} (hs : IsIdentifier s) : IsErrorName (s ++ "Error".toList)
  | exception {s : List Char} (hs : IsIdentifier s) : IsErrorName (s ++ "Exception".toList)

/-- The line `name: message` or `Uncaught name: message`, with blank characters before it. -/
structure IsHeader (line name message : List Char) : Prop where
  written : ∃ lead uncaught, line = lead ++ (uncaught ++ (name ++ (": ".toList ++ message))) ∧
    (∀ c ∈ lead, isBlank c = true) ∧ (uncaught = [] ∨ uncaught = "Uncaught ".toList)
  name : IsErrorName name

/-- The line `at body`, with blank characters before it and maybe behind it. -/
def IsAt (line body : List Char) : Prop :=
  ∃ lead trail, line = lead ++ ("at ".toList ++ (body ++ trail)) ∧ lead ≠ [] ∧
    (∀ c ∈ lead, isBlank c = true) ∧ ∀ c ∈ trail, isBlank c = true

/-- The frame `at fn (file:line:column)`. The parenthesis is the first behind a space. -/
def IsCall (text file line column : List Char) : Prop :=
  ∃ fn place, IsAt text (fn ++ (" (".toList ++ (place ++ [')']))) ∧ ¬" (".toList <:+: fn ∧
    IsPlaceText place file line column

/-- The frame `at file:line:column`. -/
def IsBare (text file line column : List Char) : Prop :=
  ∃ place, IsAt text place ∧ IsPlaceText place file line column ∧
    ∀ c, file.head? = some c → isBlank c = false ∧ c ≠ '('

/-- A frame, in the first of the two forms that it has. -/
def IsFrame (text file line column : List Char) : Prop :=
  IsCall text file line column ∨
    (¬∃ file line column, IsCall text file line column) ∧ IsBare text file line column

/-- What is left of a file name without the words `file://` at its start. -/
def IsOwn (file own : List Char) : Prop :=
  (∃ n, file = (List.replicate n scheme).flatten ++ own) ∧ ¬scheme <+: own

/-- The file of a dependency or of the runtime. -/
def IsInternal (file : List Char) : Prop :=
  "node_modules".toList <:+: file ∨ "node:".toList <+: file ∨ "internal/".toList <+: file

/-! ## Lines that name an error -/

variable {line s name message body file l column : List Char} {c : Char}

theorem isName_iff : isName s = true ↔ IsIdentifier s := by
  cases s with
  | nil => simp [isName, IsIdentifier]
  | cons c rest => simp [isName, IsIdentifier]

theorem isErrorName_iff : isErrorName s = true ↔ IsErrorName s := by
  have hword : ∀ word : List Char, (before? word s).any isName = true ↔
      ∃ t, IsIdentifier t ∧ s = t ++ word := by
    intro word
    rw [Option.any_eq_true]
    constructor
    · rintro ⟨t, ht, hname⟩
      exact ⟨t, isName_iff.1 hname, before?_eq_some_iff.1 ht⟩
    · rintro ⟨t, ht, hs⟩
      exact ⟨t, before?_eq_some_iff.2 hs, isName_iff.2 ht⟩
  rw [isErrorName, Bool.or_eq_true, hword, hword]
  constructor
  · rintro (⟨t, ht, rfl⟩ | ⟨t, ht, rfl⟩)
    · exact .error ht
    · exact .exception ht
  · intro h
    cases h with
    | error ht => exact .inl ⟨_, ht, rfl⟩
    | exception ht => exact .inr ⟨_, ht, rfl⟩

theorem isNamePart_of_isNameStart (h : isNameStart c = true) : isNamePart c = true := by
  simp only [isNameStart, Bool.or_eq_true, decide_eq_true_eq] at h
  rcases h with (h | rfl) | rfl
  · simp [isNamePart, isWord, Char.isAlphanum, h]
  · decide
  · decide

theorem IsIdentifier.isNamePart (h : IsIdentifier s) (hc : c ∈ s) : isNamePart c = true := by
  rcases h with rfl | ⟨d, rest, rfl, hd, hrest⟩
  · cases hc
  · rcases List.mem_cons.1 hc with rfl | hc
    · exact isNamePart_of_isNameStart hd
    · exact hrest c hc

theorem IsErrorName.isNamePart (h : IsErrorName name) (hc : c ∈ name) : isNamePart c = true := by
  cases h with
  | error hs =>
    rcases List.mem_append.1 hc with hc | hc
    · exact hs.isNamePart hc
    · exact List.all_eq_true.1 (by decide : "Error".toList.all StackTrace.isNamePart = true) c hc
  | exception hs =>
    rcases List.mem_append.1 hc with hc | hc
    · exact hs.isNamePart hc
    · have hall : "Exception".toList.all StackTrace.isNamePart = true := by decide
      exact List.all_eq_true.1 hall c hc

theorem IsErrorName.not_mem (h : IsErrorName name) (hc : StackTrace.isNamePart c = false) :
    c ∉ name := by
  intro hmem
  rw [h.isNamePart hmem] at hc
  cases hc

theorem IsErrorName.ne_nil (h : IsErrorName name) : name ≠ [] := by
  cases h <;> simp

theorem isBlank_eq_false_of_isNamePart (h : isNamePart c = true) : isBlank c = false := by
  rw [isNamePart, Bool.or_eq_true] at h
  rcases h with h | h
  · exact isBlank_eq_false_of_isWord h
  · rw [decide_eq_true_eq] at h
    subst h
    decide

/-- Where no `Uncaught ` was written before a name, none is found. -/
theorem after?_uncaught_eq_none (h : IsErrorName name) (rest : List Char) :
    after? "Uncaught ".toList (name ++ ':' :: rest) = none := by
  rw [Option.eq_none_iff_forall_not_mem]
  intro more hmore
  have hword := prefix_of_append_cons (by decide) (after?_eq_some_iff.1 hmore)
  exact h.not_mem (by decide : StackTrace.isNamePart ' ' = false)
    (hword.subset (by decide : ' ' ∈ "Uncaught ".toList))

theorem head?_isBlank_of_header {uncaught rest : List Char} (h : IsErrorName name)
    (huncaught : uncaught = [] ∨ uncaught = "Uncaught ".toList)
    (hc : (uncaught ++ (name ++ rest)).head? = some c) : isBlank c = false := by
  rcases huncaught with rfl | rfl
  · obtain ⟨d, more, rfl⟩ := List.exists_cons_of_ne_nil h.ne_nil
    obtain rfl : d = c := Option.some.inj hc
    exact isBlank_eq_false_of_isNamePart (h.isNamePart List.mem_cons_self)
  · obtain rfl : 'U' = c := Option.some.inj hc
    decide

theorem header?_eq_some_iff : header? line = some (name, message) ↔ IsHeader line name message := by
  constructor
  · intro h
    obtain ⟨⟨name', message'⟩, hcut, hrest⟩ := Option.bind_eq_some_iff.1 h
    obtain ⟨hname, heq⟩ := Option.ite_none_right_eq_some.1 hrest
    obtain ⟨rfl, rfl⟩ := Prod.mk.inj (Option.some.inj heq)
    obtain ⟨⟨lead, hline, hlead⟩, -⟩ := trimStart_eq_iff.1 (rfl : trimStart line = _)
    refine ⟨?_, isErrorName_iff.1 hname⟩
    have htext := cut?_eq_some hcut
    cases huncaught : after? "Uncaught ".toList (trimStart line) with
    | none =>
      rw [huncaught, Option.getD_none] at htext
      refine ⟨lead, [], ?_, hlead, .inl rfl⟩
      rw [hline, htext]
      simp
    | some more =>
      rw [huncaught, Option.getD_some] at htext
      refine ⟨lead, _, ?_, hlead, .inr rfl⟩
      rw [hline, after?_eq_some_iff.1 huncaught, htext]
      simp
  · rintro ⟨⟨lead, uncaught, rfl, hlead, huncaught⟩, hname⟩
    have hstart : trimStart (lead ++ (uncaught ++ (name ++ (": ".toList ++ message)))) =
        uncaught ++ (name ++ (": ".toList ++ message)) :=
      trimStart_eq_iff.2
        ⟨⟨lead, rfl, hlead⟩, fun c hc => head?_isBlank_of_header hname huncaught hc⟩
    have hskip : (after? "Uncaught ".toList (uncaught ++ (name ++ (": ".toList ++ message)))).getD
        (uncaught ++ (name ++ (": ".toList ++ message))) = name ++ (": ".toList ++ message) := by
      rcases huncaught with rfl | rfl
      · rw [List.nil_append]
        change (after? _ (name ++ ':' :: (' ' :: message))).getD _ = _
        rw [after?_uncaught_eq_none hname]
        rfl
      · rw [after?_append, Option.getD_some]
    have hcut : cut? [':', ' '] (name ++ (": ".toList ++ message)) = some (name, message) :=
      cut?_append [' '] message (hname.not_mem (by decide))
    simp only [header?, hstart, hskip, hcut, Option.bind_eq_bind, Option.bind_some,
      isErrorName_iff.2 hname, if_true]
    rfl

/-! ## Frames -/

theorem frame?_eq_some_iff : frame? line = some body ↔
    IsAt line body ∧ ∀ c, body.getLast? = some c → isBlank c = false := by
  unfold frame? IsAt
  constructor
  · intro h
    obtain ⟨hlength, h⟩ := Option.ite_none_left_eq_some.1 h
    obtain ⟨more, hmore, hbody⟩ := Option.map_eq_some_iff.1 h
    obtain ⟨⟨lead, hline, hlead⟩, -⟩ := trimStart_eq_iff.1 (rfl : trimStart line = _)
    obtain ⟨⟨trail, htrail, hblank⟩, hlast⟩ := trimEndBy_eq_iff.1 hbody
    refine ⟨⟨lead, trail, ?_, fun hnil => hlength ?_, hlead, hblank⟩, hlast⟩
    · rw [hline, after?_eq_some_iff.1 hmore, htrail]
      rfl
    · rw [hnil, List.nil_append] at hline
      rw [← hline]
  · rintro ⟨⟨lead, trail, rfl, hne, hlead, htrail⟩, hlast⟩
    have hstart : trimStart (lead ++ ("at ".toList ++ (body ++ trail))) =
        "at ".toList ++ (body ++ trail) :=
      trimStart_eq_iff.2 ⟨⟨lead, rfl, hlead⟩, fun c hc => by
        obtain rfl : 'a' = c := Option.some.inj hc
        decide⟩
    have hend : trimEnd (body ++ trail) = body := trimEndBy_eq_iff.2 ⟨⟨trail, rfl, htrail⟩, hlast⟩
    have hat : after? ['a', 't', ' '] ("at ".toList ++ (body ++ trail)) = some (body ++ trail) :=
      after?_append _ _
    simp only [hstart, hat, Option.map_some, hend]
    rw [if_neg]
    simpa using hne

/-- A frame ends where its lines do not count blank characters. -/
theorem IsAt.frame? (h : IsAt line (body ++ [c])) (hc : isBlank c = false) :
    frame? line = some (body ++ [c]) :=
  frame?_eq_some_iff.2 ⟨h, fun d hd => by
    rw [List.getLast?_concat] at hd
    obtain rfl := Option.some.inj hd
    exact hc⟩

theorem infix_concat_space_iff {fn : List Char} :
    " (".toList <:+: fn ++ [' '] ↔ " (".toList <:+: fn := by
  constructor
  · intro h
    obtain ⟨before, after, h⟩ := h
    rcases List.eq_nil_or_concat after with rfl | ⟨after, d, rfl⟩
    · have hlast := congrArg List.getLast? h
      simp at hlast
    · rw [List.concat_eq_append, ← List.append_assoc] at h
      exact ⟨before, after, (List.append_inj' h rfl).1⟩
  · exact fun h => h.trans (List.infix_append' [] fn [' '])

theorem callPlace?_eq_some_iff {p : Place} : callPlace? body = some p ↔
    ∃ fn place file l column, body = fn ++ (" (".toList ++ (place ++ [')'])) ∧
      ¬" (".toList <:+: fn ∧ IsPlaceText place file l column ∧
        p = .of (dropScheme file) l column := by
  constructor
  · intro h
    obtain ⟨inner, hinner, h⟩ := Option.bind_eq_some_iff.1 h
    obtain ⟨⟨start, l, column⟩, hplace, h⟩ := Option.bind_eq_some_iff.1 h
    obtain ⟨⟨fn, file⟩, hcut, h⟩ := Option.bind_eq_some_iff.1 h
    obtain ⟨hne, heq⟩ := Option.ite_none_left_eq_some.1 h
    obtain rfl := Option.some.inj heq
    obtain ⟨rfl, hfn⟩ := (cut?_eq_some_iff (by simp)).1 hcut
    obtain ⟨hwritten, -, hl, hc⟩ := cutPlace?_eq_some_iff_isPlaceText.1 hplace
    refine ⟨fn, file ++ ':' :: l ++ ':' :: column, file, l, column, ?_,
      fun h => hfn (infix_concat_space_iff.2 h), ⟨rfl, by simpa using hne, hl, hc⟩, rfl⟩
    rw [before?_eq_some_iff.1 hinner, hwritten]
    simp
  · rintro ⟨fn, place, file, l, column, rfl, hfn, hplace, rfl⟩
    have hinner : before? [')'] (fn ++ (" (".toList ++ (place ++ [')']))) =
        some (fn ++ (" (".toList ++ place)) := before?_eq_some_iff.2 (by simp)
    have hstart : cutPlace? (fn ++ (" (".toList ++ place)) =
        some (fn ++ " (".toList ++ file, l, column) :=
      cutPlace?_eq_some_iff_isPlaceText.2
        ⟨by rw [hplace.written]; simp, by simp, hplace.lines, hplace.columns⟩
    have hcut : cut? [' ', '('] (fn ++ " (".toList ++ file) = some (fn, file) :=
      (cut?_eq_some_iff (by simp)).2 ⟨rfl, fun h => hfn (infix_concat_space_iff.1 h)⟩
    simp only [callPlace?, hinner, hstart, hcut, Option.bind_eq_bind, Option.bind_some]
    simpa using hplace.named

theorem barePlace?_eq_some_iff {p : Place} : barePlace? body = some p ↔
    ∃ file l column, IsPlaceText body file l column ∧
      (∀ c, file.head? = some c → isBlank c = false ∧ c ≠ '(') ∧
        p = .of (dropScheme file) l column := by
  constructor
  · intro h
    obtain ⟨⟨file, l, column⟩, hplace, h⟩ := Option.bind_eq_some_iff.1 h
    cases file with
    | nil => cases h
    | cons c file =>
      obtain ⟨hc, heq⟩ := Option.ite_none_left_eq_some.1 h
      obtain rfl := Option.some.inj heq
      refine ⟨c :: file, l, column, cutPlace?_eq_some_iff_isPlaceText.1 hplace, fun d hd => ?_, rfl⟩
      obtain rfl : c = d := Option.some.inj hd
      simpa using hc
  · rintro ⟨file, l, column, hplace, hhead, rfl⟩
    obtain ⟨c, rest, rfl⟩ := List.exists_cons_of_ne_nil hplace.named
    obtain ⟨hblank, hparen⟩ := hhead c rfl
    simp [barePlace?, cutPlace?_eq_some_iff_isPlaceText.2 hplace, hblank, hparen]

theorem isCall_iff {p : Place} : (∃ body, frame? line = some body ∧ callPlace? body = some p) ↔
    ∃ file l column, IsCall line file l column ∧ p = .of (dropScheme file) l column := by
  constructor
  · rintro ⟨body, hframe, hbody⟩
    obtain ⟨fn, place, file, l, column, rfl, hfn, hplace, rfl⟩ := callPlace?_eq_some_iff.1 hbody
    exact ⟨file, l, column, ⟨fn, place, (frame?_eq_some_iff.1 hframe).1, hfn, hplace⟩, rfl⟩
  · rintro ⟨file, l, column, ⟨fn, place, hat, hfn, hplace⟩, rfl⟩
    refine ⟨_, ?_, callPlace?_eq_some_iff.2 ⟨fn, place, file, l, column, rfl, hfn, hplace, rfl⟩⟩
    rw [← List.append_assoc, ← List.append_assoc] at hat ⊢
    exact hat.frame? (by decide)

/-- A frame is read as what was written. -/
theorem place?_eq_some_iff {p : Place} : place? line = some p ↔
    ∃ file l column, IsFrame line file l column ∧ p = .of (dropScheme file) l column := by
  constructor
  · intro h
    obtain ⟨body, hframe, h⟩ := Option.bind_eq_some_iff.1 h
    rcases Option.or_eq_some_iff.1 h with h | ⟨hnone, h⟩
    · obtain ⟨file, l, column, hfile, rfl⟩ := isCall_iff.1 ⟨body, hframe, h⟩
      exact ⟨file, l, column, .inl hfile, rfl⟩
    · obtain ⟨file, l, column, hplace, hhead, rfl⟩ := barePlace?_eq_some_iff.1 h
      refine ⟨file, l, column, .inr ⟨?_, body, (frame?_eq_some_iff.1 hframe).1, hplace, hhead⟩, rfl⟩
      rintro ⟨file, l, column, hfile⟩
      obtain ⟨body', hframe', hplace'⟩ := isCall_iff.2 ⟨file, l, column, hfile, rfl⟩
      obtain rfl := Option.some.inj (hframe.symm.trans hframe')
      rw [hnone] at hplace'
      cases hplace'
  · rintro ⟨file, l, column, hfile | ⟨hnone, place, hat, hplace, hhead⟩, rfl⟩
    · obtain ⟨body, hframe, hplace⟩ := isCall_iff.2 ⟨file, l, column, hfile, rfl⟩
      rw [place?, hframe, Option.bind_eq_bind, Option.bind_some, hplace, Option.some_or]
    · obtain ⟨start, c, hend, hc⟩ := hplace.exists_concat
      have hframe : frame? line = some place := by
        rw [hend] at hat ⊢
        exact hat.frame? hc
      have hother : callPlace? place = none := by
        refine Option.eq_none_iff_forall_not_mem.2 fun q hq => ?_
        obtain ⟨file, l, column, hfile, -⟩ := isCall_iff.1 ⟨place, hframe, hq⟩
        exact hnone ⟨file, l, column, hfile⟩
      rw [place?, hframe, Option.bind_eq_bind, Option.bind_some, hother, Option.none_or]
      exact barePlace?_eq_some_iff.2 ⟨file, l, column, hplace, hhead, rfl⟩

/-- A frame has digits for both numbers. -/
theorem IsFrame.ne_nil (h : IsFrame line file l column) : l ≠ [] ∧ column ≠ [] := by
  obtain ⟨fn, place, -, -, hplace⟩ | ⟨-, place, -, hplace, -⟩ := h
  · exact ⟨hplace.lines.1, hplace.columns.1⟩
  · exact ⟨hplace.lines.1, hplace.columns.1⟩

/-- A frame does not name an error. -/
theorem IsAt.not_isHeader (h : IsAt line body) : ¬IsHeader line name message := by
  obtain ⟨lead, trail, hline, -, hlead, -⟩ := h
  rintro ⟨⟨lead', uncaught, hline', hlead', huncaught⟩, hname⟩
  have hstart : trimStart line = "at ".toList ++ (body ++ trail) :=
    trimStart_eq_iff.2 ⟨⟨lead, hline, hlead⟩, fun c hc => by
      obtain rfl : 'a' = c := Option.some.inj hc
      decide⟩
  have hstart' : trimStart line = uncaught ++ (name ++ (": ".toList ++ message)) :=
    trimStart_eq_iff.2
      ⟨⟨lead', hline', hlead'⟩, fun c hc => head?_isBlank_of_header hname huncaught hc⟩
  rw [hstart] at hstart'
  rcases huncaught with rfl | rfl
  · have hword := prefix_of_append_cons (by decide) hstart'.symm
    exact hname.not_mem (by decide : StackTrace.isNamePart ' ' = false)
      (hword.subset (by decide : ' ' ∈ "at ".toList))
  · exact absurd (List.cons.inj hstart').1 (by decide)

/-! ## Files -/

theorem dropScheme_append (own : List Char) : dropScheme (scheme ++ own) = dropScheme own := by
  rw [dropScheme]
  split
  · next rest h =>
    rw [after?_append] at h
    rw [← Option.some.inj h]
  · next h =>
    rw [after?_append] at h
    cases h

theorem dropScheme_of_not_prefix (h : ¬scheme <+: file) : dropScheme file = file := by
  rw [dropScheme]
  split
  · next rest hrest => exact absurd ⟨rest, (after?_eq_some_iff.1 hrest).symm⟩ h
  · rfl

theorem isOwn_dropScheme (file : List Char) : IsOwn file (dropScheme file) := by
  fun_induction dropScheme file with
  | case1 file rest h ih =>
    obtain ⟨⟨n, hn⟩, hown⟩ := ih
    refine ⟨⟨n + 1, ?_⟩, hown⟩
    rw [after?_eq_some_iff.1 h, List.replicate_succ, List.flatten_cons, List.append_assoc, ← hn]
  | case2 file h =>
    refine ⟨⟨0, rfl⟩, fun hstart => ?_⟩
    rw [← startsWith_iff, startsWith, h] at hstart
    cases hstart

/-- There is one file that is left. -/
theorem dropScheme_eq_iff {own : List Char} : dropScheme file = own ↔ IsOwn file own := by
  constructor
  · rintro rfl
    exact isOwn_dropScheme file
  · rintro ⟨⟨n, rfl⟩, hown⟩
    induction n with
    | zero => exact dropScheme_of_not_prefix hown
    | succ n ih =>
      rw [List.replicate_succ, List.flatten_cons, List.append_assoc, dropScheme_append]
      exact ih

theorem isInternal_iff : isInternal (String.ofList file) = true ↔ IsInternal file := by
  simp only [isInternal, Bool.or_eq_true, contains_iff, startsWith_iff, String.toList_ofList,
    IsInternal, or_assoc]

end Steward.Output.StackTrace
