import Steward.Proofs.Output.Blocks
import Steward.Proofs.Output.PanicLines

/-!
# No located panic is lost

The reader of test output holds at most one panic whose text is not complete, and every line that
starts a panic, or a section, closes what it holds. So each panic is told by its own line and the
lines after it, whatever stands around them.

* `Told`, `told`: the reader gives what the lines tell, from every state.
* `quotedFrom_eq_some_iff`: what a message in quotes tells.
* `panics_told`: each line that gives a place tells its panic, and other annotations come from
  messages in quotes that are closed in time.
-/

namespace Steward.Output.CargoTest

open Text

variable {line thread rest text message : List Char} {after before : List (List Char)}
  {test : Option String} {title : String}

/-! ## Lines that start nothing -/

/-- A line that is neither a section nor a panic. -/
def Quiet (line : List Char) : Prop := section? line = none ∧ thread? line = none

/-- A panic line ends both kinds of message. -/
theorem ends_of_thread? (h : thread? line = some (thread, rest)) :
    startsBlock line = true ∧ endsMessage line = true := by
  obtain ⟨s, hs, -⟩ := Option.bind_eq_some_iff.1 h
  have hthread : startsWith "thread '".toList line = true := by
    rw [startsWith, hs]
    rfl
  constructor
  · simp only [startsBlock, hthread, Bool.or_true, Bool.true_or]
  · simp only [endsMessage, hthread, Bool.or_true, Bool.true_or]

/-- A line that may go on with a message of either kind is quiet. -/
theorem quiet_of_not_ends (h : startsBlock line = false ∨ endsMessage line = false) :
    Quiet line := by
  constructor
  · refine Option.eq_none_iff_forall_not_mem.2 fun name hname => ?_
    obtain ⟨hblock, hmessage⟩ := ends_of_section hname
    simp [hblock, hmessage] at h
  · refine Option.eq_none_iff_forall_not_mem.2 fun p hp => ?_
    obtain ⟨hblock, hmessage⟩ := ends_of_thread? hp
    simp [hblock, hmessage] at h

theorem thread?_of_section (h : section? line = some name) : thread? line = none := by
  obtain ⟨rfl, -, -⟩ := section?_eq_some_iff.1 h
  rfl

/-! ## What the lines tell -/

/-- The test whose section a line stands in, given that of the line before. -/
def testAfter (test : Option String) (line : List Char) : Option String :=
  match section? line with
  | some name => some (String.ofList name)
  | none => test

/-- The test whose section follows on lines. -/
def testOf (before : List (List Char)) : Option String := before.foldl testAfter none

/-- What a message in quotes tells that starts with a text and goes on with lines. -/
def quotedFrom (title : String) : (after : List (List Char)) → (text : List Char) →
    Option Annotation
  | [], text => (closed? text).map fun (message, place) => report title place message
  | line :: after, text =>
    match closed? text with
    | some (message, place) => some (report title place message)
    | none =>
      if startsBlock line then none else quotedFrom title after (text ++ '\n' :: line)

/-- The lines of a message that gave its place first. -/
def messageLines (after : List (List Char)) : List (List Char) :=
  after.takeWhile fun l => !endsMessage l

/-- What a line tells, given the test and the lines after it. -/
def panicOf (test : Option String) (line : List Char) (after : List (List Char)) :
    Option Annotation :=
  match located? line with
  | some (thread, place) =>
    some (report (test.getD (String.ofList thread)) place (messageOf (messageLines after)))
  | none =>
    match opened? line with
    | some (thread, text) => quotedFrom (test.getD (String.ofList thread)) after text
    | none => none

/-- What lines tell, one after the other. -/
def panics (test : Option String) : List (List Char) → List Annotation
  | [] => []
  | line :: after => (panicOf test line after).toList ++ panics (testAfter test line) after

theorem quotedFrom_of_closed {place : Place} (h : closed? text = some (message, place))
    (title : String) (after : List (List Char)) :
    quotedFrom title after text = some (report title place message) := by
  cases after <;> simp [quotedFrom, h]

theorem quotedFrom_cons (h : closed? text = none) (title : String) (line : List Char)
    (after : List (List Char)) :
    quotedFrom title (line :: after) text =
      if startsBlock line then none else quotedFrom title after (text ++ '\n' :: line) := by
  simp [quotedFrom, h]

theorem panicOf_of_thread?_eq_none (h : thread? line = none) : panicOf test line after = none := by
  simp [panicOf, located?, opened?, h]

theorem panics_of_quiet (h : Quiet line) : panics test (line :: after) = panics test after := by
  rw [panics, panicOf_of_thread?_eq_none h.2, testAfter, h.1]
  rfl

/-! ## The reader -/

theorem run_cons (s : State) (line : List Char) (after : List (List Char)) :
    reader.run s (line :: after) = (step s line).1 ++ reader.run (step s line).2 after := rfl

/-- From every state, the reader gives what it holds, completed by the lines, and then what these
tell themselves. -/
structure Told (ls : List (List Char)) : Prop where
  idle : ∀ test, reader.run { test } ls = panics test ls
  located : ∀ test title place lines,
    reader.run { test, pending := some (.located title place lines) } ls =
      report title place (messageOf (lines ++ messageLines ls)) :: panics test ls
  opened : ∀ test title text, closed? text = none →
    reader.run { test, pending := some (.opened title text) } ls =
      (quotedFrom title ls text).toList ++ panics test ls

theorem told_nil : Told [] where
  idle _ := rfl
  located test title place lines := by
    simp [Reader.run, reader, close, panics, messageLines]
  opened test title text h := by
    simp [Reader.run, reader, close, panics, quotedFrom, h]

section
variable {ls : List (List Char)}

theorem Told.addQuoted (h : Told ls) (s : State) (title : String) (text : List Char) :
    (addQuoted s title text).1 ++ reader.run (addQuoted s title text).2 ls =
      (quotedFrom title ls text).toList ++ panics s.test ls := by
  cases hc : closed? text with
  | some q =>
    have hrun := h.idle s.test
    simp [CargoTest.addQuoted, hc, quotedFrom_of_closed hc, hrun]
  | none =>
    have hrun := h.opened s.test title text hc
    simp [CargoTest.addQuoted, hc, hrun]

/-- A line outside of any message leads to one of the three states, which the lines after it
complete. -/
theorem Told.fresh (h : Told ls) (test : Option String) (line : List Char) :
    (fresh test line).1 ++ reader.run (fresh test line).2 ls = panics test (line :: ls) := by
  rw [panics]
  cases hs : section? line with
  | some name =>
    rw [panicOf_of_thread?_eq_none (thread?_of_section hs)]
    simp [CargoTest.fresh, testAfter, hs, h.idle]
  | none =>
    cases hl : located? line with
    | some p => simp [CargoTest.fresh, testAfter, panicOf, hs, hl, h.located]
    | none =>
      cases ho : opened? line with
      | none => simp [CargoTest.fresh, testAfter, panicOf, hs, hl, ho, h.idle]
      | some p => simp [CargoTest.fresh, testAfter, panicOf, hs, hl, ho, h.addQuoted]

theorem Told.cons (h : Told ls) (line : List Char) : Told (line :: ls) where
  idle test := h.fresh test line
  located test title place lines := by
    rw [run_cons]
    cases hends : endsMessage line with
    | true => simp [step, hends, close, messageLines, ← h.fresh]
    | false =>
      have hrun := h.located test title place (lines ++ [line])
      rw [panics_of_quiet (quiet_of_not_ends (.inr hends))]
      simpa [step, hends, messageLines] using hrun
  opened test title text htext := by
    rw [run_cons, quotedFrom_cons htext]
    cases hblock : startsBlock line with
    | true => simp [step, hblock, ← h.fresh]
    | false =>
      rw [panics_of_quiet (quiet_of_not_ends (.inl hblock))]
      simp [step, hblock, h.addQuoted]

end

theorem told (ls : List (List Char)) : Told ls := by
  induction ls with
  | nil => exact told_nil
  | cons line ls ih => exact ih.cons line

/-! ## Titles -/

/-- The title of a panic that lines stand before: the test of the last section among them, or else
the thread. -/
def IsTitle (before : List (List Char)) (thread title : List Char) : Prop :=
  (∃ earlier line later, before = earlier ++ line :: later ∧ IsSection line title ∧
    ∀ l ∈ later, ∀ name, ¬IsSection l name) ∨
  (∀ l ∈ before, ∀ name, ¬IsSection l name) ∧ title = thread

theorem testAfter_of_section (h : IsSection line name) :
    testAfter test line = some (String.ofList name) := by
  rw [testAfter, section?_eq_some_iff.2 h]

theorem foldl_testAfter_of_no_section {ls : List (List Char)}
    (h : ∀ l ∈ ls, ∀ name, ¬IsSection l name) : ls.foldl testAfter test = test := by
  induction ls with
  | nil => rfl
  | cons line rest ih =>
    have hline : section? line = none :=
      Option.eq_none_iff_forall_not_mem.2 fun name hname =>
        h line List.mem_cons_self name (section?_eq_some_iff.1 hname)
    rw [List.foldl_cons, testAfter, hline]
    exact ih fun l hl => h l (List.mem_cons_of_mem line hl)

/-- Either there is a last section among lines, or there is none. -/
theorem last_section (ls : List (List Char)) :
    (∃ earlier line later name, ls = earlier ++ line :: later ∧ IsSection line name ∧
      ∀ l ∈ later, ∀ name, ¬IsSection l name) ∨
    ∀ l ∈ ls, ∀ name, ¬IsSection l name := by
  induction ls with
  | nil => exact .inr (by simp)
  | cons line rest ih =>
    rcases ih with ⟨earlier, l, later, name, rfl, hsection, hlater⟩ | hrest
    · exact .inl ⟨line :: earlier, l, later, name, rfl, hsection, hlater⟩
    · by_cases hline : ∃ name, IsSection line name
      · obtain ⟨name, hsection⟩ := hline
        exact .inl ⟨[], line, rest, name, rfl, hsection, hrest⟩
      · refine .inr fun l hl name hsection => ?_
        rcases List.mem_cons.1 hl with rfl | hl
        · exact hline ⟨name, hsection⟩
        · exact hrest l hl name hsection

theorem testOf_of_last_section {earlier later : List (List Char)} (h : IsSection line name)
    (hlater : ∀ l ∈ later, ∀ name, ¬IsSection l name) :
    testOf (earlier ++ line :: later) = some (String.ofList name) := by
  rw [testOf, List.foldl_append, List.foldl_cons, testAfter_of_section h,
    foldl_testAfter_of_no_section hlater]

theorem isTitle_iff {title : List Char} : IsTitle before thread title ↔
    String.ofList title = (testOf before).getD (String.ofList thread) := by
  constructor
  · rintro (⟨earlier, line, later, rfl, hsection, hlater⟩ | ⟨hnone, rfl⟩)
    · rw [testOf_of_last_section hsection hlater]
      rfl
    · rw [testOf, foldl_testAfter_of_no_section hnone]
      rfl
  · intro h
    rcases last_section before with ⟨earlier, line, later, name, rfl, hsection, hlater⟩ | hnone
    · rw [testOf_of_last_section hsection hlater] at h
      obtain rfl := String.ofList_injective h
      exact .inl ⟨earlier, line, later, rfl, hsection, hlater⟩
    · rw [testOf, foldl_testAfter_of_no_section hnone] at h
      exact .inr ⟨hnone, String.ofList_injective h⟩

/-! ## Annotations -/

/-- The annotation of a panic of a thread, at a written place and with a message, that lines stand
before. -/
structure Reports (a : Annotation) (before : List (List Char))
    (thread file line column message : List Char) : Prop where
  level : a.level = .error
  file : a.file = String.ofList file
  line : a.line.toNat = number line
  column : a.column.toNat = number column
  endLine : a.endLine = none
  endColumn : a.endColumn = none
  title : ∃ title, IsTitle before thread title ∧ a.title = some (String.ofList title)
  message : a.message = String.ofList message

theorem reports_report {file column : List Char} (hl : line ≠ []) (hc : column ≠ []) :
    Reports (report ((testOf before).getD (String.ofList thread)) (.of file line column) message)
      before thread file line column message where
  level := rfl
  file := rfl
  line := toNat_position hl
  column := toNat_position hc
  endLine := rfl
  endColumn := rfl
  title := by
    refine ⟨((testOf before).getD (String.ofList thread)).toList, isTitle_iff.2 ?_, ?_⟩
    · exact String.ofList_toList
    · rw [String.ofList_toList]
      rfl
  message := rfl

/-! ## Messages in quotes -/

theorem closed?_eq_none_iff : closed? text = none ↔
    ∀ message file line column, ¬IsClosed text message file line column := by
  constructor
  · intro h message file line column hclosed
    rw [closed?_eq_some_iff.2 ⟨file, line, column, hclosed, rfl⟩] at h
    cases h
  · intro h
    refine Option.eq_none_iff_forall_not_mem.2 fun p hp => ?_
    obtain ⟨file, line, column, hclosed, -⟩ := closed?_eq_some_iff.1 hp
    exact h _ _ _ _ hclosed

/-- A message in quotes that starts with a text is closed by one of the lines after it, the first to
do so, with no line before or at that which starts a block. -/
def Completes (after : List (List Char)) (text message file line column : List Char) : Prop :=
  ∃ n ≤ (after.takeWhile fun l => !startsBlock l).length,
    IsClosed (joinLines (text :: after.take n)) message file line column ∧
    ∀ m < n, ∀ message file line column,
      ¬IsClosed (joinLines (text :: after.take m)) message file line column

theorem joinLines_cons_cons (a b : List Char) (ls : List (List Char)) :
    joinLines (a :: b :: ls) = joinLines ((a ++ '\n' :: b) :: ls) := by
  cases ls <;> simp [joinLines, List.intercalate_cons_cons]

theorem joinLines_take_zero : joinLines (text :: after.take 0) = text := by
  simp [joinLines]

section
variable {file column : List Char}

theorem completes_of_isClosed (h : IsClosed text message file line column) :
    Completes after text message file line column :=
  ⟨0, Nat.zero_le _, by rwa [joinLines_take_zero], fun m hm => absurd hm (Nat.not_lt_zero m)⟩

/-- A text that is closed is completed by no line. -/
theorem Completes.isClosed (h : Completes after text message file line column)
    (hclosed : closed? text ≠ none) : IsClosed text message file line column := by
  obtain ⟨n, -, hn, hfirst⟩ := h
  cases n with
  | zero => rwa [joinLines_take_zero] at hn
  | succ n =>
    have htext := hfirst 0 (Nat.succ_pos n)
    rw [joinLines_take_zero] at htext
    exact absurd (closed?_eq_none_iff.2 htext) hclosed

theorem not_completes_nil (h : closed? text = none) :
    ¬Completes [] text message file line column := by
  rintro ⟨n, hn, hclosed, -⟩
  obtain rfl : n = 0 := Nat.le_zero.1 hn
  rw [joinLines_take_zero] at hclosed
  exact closed?_eq_none_iff.1 h _ _ _ _ hclosed

theorem completes_cons_iff {l : List Char} (h : closed? text = none) :
    Completes (l :: after) text message file line column ↔
      startsBlock l = false ∧ Completes after (text ++ '\n' :: l) message file line column := by
  constructor
  · rintro ⟨n, hn, hclosed, hfirst⟩
    cases n with
    | zero =>
      rw [joinLines_take_zero] at hclosed
      exact absurd hclosed (closed?_eq_none_iff.1 h _ _ _ _)
    | succ n =>
      cases hblock : startsBlock l with
      | true => simp [hblock] at hn
      | false =>
        refine ⟨rfl, n, by simpa [hblock] using hn, ?_, fun m hm => ?_⟩
        · rwa [List.take_succ_cons, joinLines_cons_cons] at hclosed
        · have hlater := hfirst (m + 1) (Nat.succ_lt_succ hm)
          rwa [List.take_succ_cons, joinLines_cons_cons] at hlater
  · rintro ⟨hblock, n, hn, hclosed, hfirst⟩
    refine ⟨n + 1, by simpa [hblock] using hn, ?_, fun m hm => ?_⟩
    · rwa [List.take_succ_cons, joinLines_cons_cons]
    · cases m with
      | zero =>
        rw [joinLines_take_zero]
        exact closed?_eq_none_iff.1 h
      | succ m =>
        rw [List.take_succ_cons, joinLines_cons_cons]
        exact hfirst m (Nat.lt_of_succ_lt_succ hm)

end

theorem quotedFrom_eq_some_iff_of_closed {a : Annotation} {p : List Char × Place}
    (hc : closed? text = some p) : quotedFrom title after text = some a ↔
    ∃ message file line column, Completes after text message file line column ∧
      a = report title (.of file line column) message := by
  obtain ⟨file, line, column, hclosed, hplace⟩ := closed?_eq_some_iff.1 hc
  rw [quotedFrom_of_closed hc]
  constructor
  · intro h
    obtain rfl := Option.some.inj h
    exact ⟨_, file, line, column, completes_of_isClosed hclosed, by rw [hplace]⟩
  · rintro ⟨message, file', line', column', hcompletes, rfl⟩
    have hne : closed? text ≠ none := Option.ne_none_iff_exists'.2 ⟨p, hc⟩
    have hc' := closed?_eq_some_iff.2 ⟨_, _, _, hcompletes.isClosed hne, rfl⟩
    obtain rfl := Option.some.inj (hc.symm.trans hc')
    rfl

/-- A message in quotes tells what closes it, and nothing if nothing does. -/
theorem quotedFrom_eq_some_iff {a : Annotation} : quotedFrom title after text = some a ↔
    ∃ message file line column, Completes after text message file line column ∧
      a = report title (.of file line column) message := by
  induction after generalizing text with
  | nil =>
    cases hc : closed? text with
    | some p => exact quotedFrom_eq_some_iff_of_closed hc
    | none => simp [quotedFrom, hc, not_completes_nil hc]
  | cons l after ih =>
    cases hc : closed? text with
    | some p => exact quotedFrom_eq_some_iff_of_closed hc
    | none =>
      rw [quotedFrom_cons hc]
      cases hblock : startsBlock l <;> simp [completes_cons_iff hc, hblock, ih]

/-! ## The lines of an output -/

section
variable {file column : List Char} {a : Annotation}

/-- A line that gives a message first gives no place first. -/
theorem located?_of_isOpened (h : IsOpened line thread text) : located? line = none := by
  refine Option.eq_none_iff_forall_not_mem.2 fun p hp => ?_
  obtain ⟨file, l, c, ⟨place, hplace, hpanic⟩, -⟩ := located?_eq_some_iff.1 hp
  have hrest := (thread?_eq_some_iff.2 hpanic).symm.trans (thread?_eq_some_iff.2 h)
  obtain ⟨-, hrest⟩ := Prod.mk.inj (Option.some.inj hrest)
  obtain ⟨x, xs, hfile⟩ := List.exists_cons_of_ne_nil hplace.named
  have hx : x = '\'' := by
    rw [hplace.written, hfile] at hrest
    exact (List.cons.inj hrest).1
  exact (hplace.unbroken x (hfile ▸ List.mem_cons_self)).2 hx

theorem panicOf_of_isLocated (h : IsLocated text thread file line column) :
    ∃ a, panicOf (testOf before) text after = some a ∧
      Reports a before thread file line column (messageOf (messageLines after)) := by
  have hplace := h.choose_spec.1
  refine ⟨_, ?_, reports_report hplace.lines.1 hplace.columns.1⟩
  rw [panicOf, located?_eq_some_iff.2 ⟨file, line, column, h, rfl⟩]

theorem panicOf_of_isOpened (h : IsOpened line thread text) :
    panicOf (testOf before) line after =
      quotedFrom ((testOf before).getD (String.ofList thread)) after text := by
  rw [panicOf, located?_of_isOpened h, opened?_eq_some_iff.2 h]

theorem Completes.reports {l : List Char} (h : Completes after text message file l column) :
    Reports (report ((testOf before).getD (String.ofList thread)) (.of file l column) message)
      before thread file l column message := by
  obtain ⟨n, -, ⟨place, hplace, -⟩, -⟩ := h
  exact reports_report hplace.lines.1 hplace.columns.1

/-- What a line tells that gives no place first comes from a message in quotes. -/
theorem isOpened_of_panicOf (h : panicOf (testOf before) line after = some a)
    (hlocated : ¬∃ thread file l c, IsLocated line thread file l c) :
    ∃ thread text message file l c, IsOpened line thread text ∧
      Completes after text message file l c ∧ Reports a before thread file l c message := by
  have hnone : located? line = none := by
    refine Option.eq_none_iff_forall_not_mem.2 fun p hp => hlocated ?_
    obtain ⟨file, l, c, hl, -⟩ := located?_eq_some_iff.1 hp
    exact ⟨_, file, l, c, hl⟩
  cases ho : opened? line with
  | none => simp [panicOf, hnone, ho] at h
  | some p =>
    have hopened : IsOpened line p.1 p.2 := opened?_eq_some_iff.1 ho
    rw [panicOf_of_isOpened hopened, quotedFrom_eq_some_iff] at h
    obtain ⟨message, file, l, c, hcompletes, rfl⟩ := h
    exact ⟨_, _, message, file, l, c, hopened, hcompletes, hcompletes.reports⟩

end

/-- What the line at a position tells. -/
def toldAt (before ls : List (List Char)) (i : Nat) : Option Annotation :=
  ls[i]?.bind fun line => panicOf (testOf (before ++ ls.take i)) line (ls.drop (i + 1))

theorem testOf_append_singleton : testOf (before ++ [line]) = testAfter (testOf before) line := by
  simp [testOf, List.foldl_append]

/-- Lines tell what each of them tells, in their order. -/
theorem panics_eq_filterMap (before ls : List (List Char)) :
    panics (testOf before) ls = (List.range ls.length).filterMap (toldAt before ls) := by
  induction ls generalizing before with
  | nil => rfl
  | cons line rest ih =>
    have hzero : toldAt before (line :: rest) 0 = panicOf (testOf before) line rest := by
      simp [toldAt]
    have hsucc : toldAt before (line :: rest) ∘ Nat.succ = toldAt (before ++ [line]) rest := by
      funext i
      simp [toldAt]
    rw [panics, ← testOf_append_singleton, ih, List.length_cons, List.range_succ_eq_map,
      List.filterMap_cons, List.filterMap_map, hzero, hsucc]
    cases panicOf (testOf before) line rest <;> rfl

/-- Each line that gives the place of a panic tells that panic, with the place as written, the test
of the last section before it or else its thread, and the lines after it up to one that ends the
message; the other annotations come from messages in quotes that are closed before a line starts a
block, and all stand in the order of their lines. -/
theorem panics_told (output : String) : ∃ tells : Nat → Option Annotation,
    reader.read output = (List.range (lines output.toList).length).filterMap tells ∧
    ∀ i line, (lines output.toList)[i]? = some line →
      (∀ thread file l c, IsLocated line thread file l c →
        ∃ a, tells i = some a ∧ Reports a ((lines output.toList).take i) thread file l c
          (messageOf (messageLines ((lines output.toList).drop (i + 1))))) ∧
      ∀ a, tells i = some a → (¬∃ thread file l c, IsLocated line thread file l c) →
        ∃ thread text message file l c, IsOpened line thread text ∧
          Completes ((lines output.toList).drop (i + 1)) text message file l c ∧
          Reports a ((lines output.toList).take i) thread file l c message := by
  generalize hls : lines output.toList = ls
  have hat : ∀ i line, ls[i]? = some line →
      toldAt [] ls i = panicOf (testOf (ls.take i)) line (ls.drop (i + 1)) := by
    intro i line hline
    simp [toldAt, hline]
  refine ⟨toldAt [] ls, ?_, fun i line hline => ⟨fun thread file l c h => ?_, fun a h hnot => ?_⟩⟩
  · rw [← panics_eq_filterMap, Reader.read, Reader.readChars, hls]
    exact (told ls).idle none
  · rw [hat i line hline]
    exact panicOf_of_isLocated h
  · rw [hat i line hline] at h
    exact isOpened_of_panicOf h hnot

/-- The output of a test whose panic is not closed, and of one that panics after it. -/
def garbled : String := "\n".intercalate
  ["---- first stdout ----", "thread 'main' panicked at 'never closed", "---- second stdout ----",
    "thread 'worker' panicked at src/lib.rs:42:7:", "left: 1", "right: 2", "note: run again"]

theorem isPlace_garbled : IsPlace "src/lib.rs:42:7".toList "src/lib.rs".toList "42".toList
    "7".toList where
  written := rfl
  named := by decide
  unbroken := isFile_iff.1 (by decide)
  lines := ⟨by decide, List.all_eq_true.1 (by decide)⟩
  columns := ⟨by decide, List.all_eq_true.1 (by decide)⟩

theorem isLocated_garbled : IsLocated "thread 'worker' panicked at src/lib.rs:42:7:".toList
    "worker".toList "src/lib.rs".toList "42".toList "7".toList :=
  ⟨_, isPlace_garbled, rfl, by decide, by decide⟩

theorem panics_told_garbled : ∃ a ∈ reader.read garbled,
    a.file = "src/lib.rs" ∧ a.line.toNat = 42 ∧ a.column.toNat = 7 ∧ a.title = some "second" ∧
      a.message = "left: 1\nright: 2" := by
  obtain ⟨tells, hread, htells⟩ := panics_told garbled
  have hlines : lines garbled.toList =
      ["---- first stdout ----".toList, "thread 'main' panicked at 'never closed".toList,
        "---- second stdout ----".toList, "thread 'worker' panicked at src/lib.rs:42:7:".toList,
        "left: 1".toList, "right: 2".toList, "note: run again".toList] :=
    lines_intercalate (by decide) (by decide)
  rw [hlines] at hread htells
  obtain ⟨a, ha, hreports⟩ := (htells 3 _ rfl).1 _ _ _ _ isLocated_garbled
  refine ⟨a, ?_, hreports.file, ?_, ?_, ?_, ?_⟩
  · rw [hread]
    exact List.mem_filterMap.2 ⟨3, by decide, ha⟩
  · rw [hreports.line]
    decide
  · rw [hreports.column]
    decide
  · obtain ⟨title, htitle, heq⟩ := hreports.title
    rw [heq, isTitle_iff.1 htitle]
    decide
  · rw [hreports.message]
    decide

end Steward.Output.CargoTest
