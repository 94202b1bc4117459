import Steward.Proofs.Lint.Reported

/-!
# Counts in words

Columns are counted from 0 in a syntax tree and from 1 in a finding, and the lines of all duplicates
are added up. Both are sums in words of 32 bits, and what is added comes from other tools: each
number by itself is one of a word, and the sum need not be.

* `Word.sum?_eq_some_iff`: adding up words overflows unless the sum of their numbers is a number of
  a word.
* `Linter.lint?_eq_none_iff`: linting overflows where a handler does that runs at a visit.
* `Linter.exists_handler_of_mem_found`: every finding shows what a handler reported at a visit.
* `Linter.MadeAt`, `Linter.covers_of_madeAt`: a finding made at a node has the node's columns,
  counted from 1.
* `Linter.exists_visit_of_mem_found`: rules that report nodes find all at nodes that were visited.
* `counts_exact_iff`: what overflows, and that all else is exact.
-/

namespace Steward

/-! ## Sums of words -/

namespace Word

/-- The sum of the numbers that words stand for. -/
def total (ns : List UInt32) : Nat := (ns.map UInt32.toNat).foldr (· + ·) 0

variable {a b sum : UInt32} {ns : List UInt32}

@[simp] theorem total_cons (n : UInt32) (ns : List UInt32) : total (n :: ns) = n.toNat + total ns :=
  rfl

theorem add?_eq_some_iff : add? a b = some sum ↔ sum.toNat = a.toNat + b.toNat := by
  have hadd : (a + b).toNat = (a.toNat + b.toNat) % count32 := UInt32.toNat_add a b
  unfold add?
  split
  · next h =>
    rw [Option.some.injEq, ← UInt32.toNat_inj, hadd, Nat.mod_eq_of_lt h]
    exact eq_comm
  · next h =>
    have hlt : sum.toNat < count32 := sum.toNat_lt
    exact iff_of_false nofun (by omega)

/-- Whatever was added up before, adding up words gives the whole sum, unless it overflows. -/
theorem foldlM_add?_eq_some_iff (ns : List UInt32) (start : UInt32) :
    ns.foldlM add? start = some sum ↔ sum.toNat = start.toNat + total ns := by
  induction ns generalizing start with
  | nil =>
    rw [List.foldlM_nil, Option.pure_def, Option.some.injEq, ← UInt32.toNat_inj]
    exact eq_comm
  | cons n ns ih =>
    rw [List.foldlM_cons, Option.bind_eq_bind, Option.bind_eq_some_iff, total_cons, ← Nat.add_assoc]
    constructor
    · rintro ⟨next, hnext, hsum⟩
      rw [(ih next).1 hsum, add?_eq_some_iff.1 hnext]
    · intro hsum
      have hlt : sum.toNat < count32 := sum.toNat_lt
      have hfits : start.toNat + n.toNat < count32 := by omega
      obtain ⟨next, hnext⟩ : ∃ next, add? start n = some next := ⟨_, if_pos hfits⟩
      exact ⟨next, hnext, (ih next).2 (by rw [hsum, add?_eq_some_iff.1 hnext])⟩

theorem sum?_eq_some_iff : sum? ns = some sum ↔ sum.toNat = total ns := by
  rw [sum?, foldlM_add?_eq_some_iff, UInt32.toNat_zero, Nat.zero_add]

end Word

namespace Lint

open Tool

section

variable {l : Linter} {file : File} {document : Json} {found : List Diagnostic} {d : Diagnostic}
  {loc : Location}

/-! ## Handlers that overflow -/

/-- One of the calls of a walk overflows if and only if the handler of a rule does that is on, at
some visit, given those before. -/
theorem Linter.any_overflow_calls_iff {t : Tree} : (l.calls file t).any (·.overflow) = true ↔
    ∃ earlier v later, t.visits [] = earlier ++ v :: later ∧
      ∃ r ∈ l.active, ∃ f ∈ r.1.handlersFor file v.tag,
        (f earlier.reverse v).overflow = true := by
  rw [calls, walk_calls, List.any_eq_true]
  simp only [mem_callsFrom_iff, List.append_nil]
  constructor
  · rintro ⟨c, ⟨earlier, v, later, hvisits, r, hr, hc⟩, hover⟩
    obtain ⟨f, hf, rfl⟩ := List.mem_map.1 hc
    exact ⟨earlier, v, later, hvisits, r, hr, f, hf, hover⟩
  · rintro ⟨earlier, v, later, hvisits, r, hr, f, hf, hover⟩
    exact ⟨_, ⟨earlier, v, later, hvisits, r, hr, List.mem_map_of_mem hf⟩, hover⟩

/-- Linting overflows if and only if a handler does that runs at a visit of the document's tree. -/
theorem Linter.lint?_eq_none_iff : l.lint? file document = none ↔
    l.config.ignores file.name = false ∧ ∃ t, program? document = some t ∧
      ∃ earlier v later, t.visits [] = earlier ++ v :: later ∧
        ∃ r ∈ l.active, ∃ f ∈ r.1.handlersFor file v.tag,
          (f earlier.reverse v).overflow = true := by
  have hover : l.overflows file document = true ↔
      l.config.ignores file.name = false ∧ ∃ t, program? document = some t ∧
        (l.calls file t).any (·.overflow) = true := by
    rw [overflows, Bool.and_eq_true, Bool.not_eq_true', Option.any_eq_true]
  simp only [any_overflow_calls_iff] at hover
  rw [← hover, lint?]
  split
  · next h => exact iff_of_true rfl h
  · next h => exact iff_of_false (Option.some_ne_none _) h

/-- With room for both columns, the span of a location comes about without overflow. -/
def Location.HasRoom (loc : Location) : Prop :=
  loc.start.column.toNat + 1 < Word.count32 ∧ loc.finish.column.toNat + 1 < Word.count32

theorem Location.isNone_ofLocation?_iff : (Span.ofLocation? loc).isNone = true ↔ ¬loc.HasRoom := by
  have hone : (1 : UInt32).toNat = 1 := rfl
  unfold Span.ofLocation? Location.HasRoom Word.add?
  rw [hone]
  by_cases hstart : loc.start.column.toNat + 1 < Word.count32 <;>
    by_cases hfinish : loc.finish.column.toNat + 1 < Word.count32 <;> simp [hstart, hfinish]

theorem Outcome.overflow_atNode_iff {n : Node} (hloc : n.location? = some loc) (messageId : String)
    (data : List (String × String)) (fix : Option Fix) :
    (Outcome.atNode n messageId data fix).overflow = true ↔ ¬loc.HasRoom := by
  unfold Outcome.atNode
  rw [hloc]
  exact Location.isNone_ofLocation?_iff

/-! ## Where findings come from -/

/-- Every finding shows a report that a handler of a rule made at a visit, given those before. -/
theorem Linter.exists_handler_of_mem_found (hfound : l.lint file document = .ok found)
    (hd : d ∈ found) :
    l.config.ignores file.name = false ∧ ∃ t, program? document = some t ∧
      ∃ earlier v later, t.visits [] = earlier ++ v :: later ∧
        ∃ r ∈ l.active, ∃ f ∈ r.1.handlersFor file v.tag,
          ∃ report ∈ (f earlier.reverse v).reports, l.Shows r.1 file report d := by
  obtain ⟨hignored, t, ht, hd⟩ := exists_tree_of_mem_found hfound hd
  obtain ⟨earlier, v, later, hvisits, ⟨r, s⟩, hactive, hd⟩ := exists_foundAt_of_mem hd
  obtain ⟨-, rfl, -⟩ := mem_active_iff.1 hactive
  obtain ⟨f, hf, hd⟩ := List.mem_flatMap.1 hd
  obtain ⟨report, hreport, hshows⟩ := exists_report_of_mem_taken hd
  rw [List.append_nil] at hreport
  exact ⟨hignored, t, ht, earlier, v, later, hvisits, _, hactive, f, hf, report, hreport, hshows⟩

/-! ## Findings at nodes -/

/-- A report is one about a node. -/
def Report.IsAbout (report : Report) (n : Node) : Prop :=
  ∃ messageId data fix, (Outcome.atNode n messageId data fix).reports = [report]

/-- A finding shows a report of one of the rules about a node. -/
def Linter.MadeAt (l : Linter) (file : File) (n : Node) (d : Diagnostic) : Prop :=
  ∃ r ∈ l.rules, ∃ report, report.IsAbout n ∧ l.Shows r file report d

/-- A finding covers a location, with columns counted from 1. -/
structure Diagnostic.Covers (d : Diagnostic) (loc : Location) : Prop where
  line : d.line = loc.start.line
  column : d.column.toNat = loc.start.column.toNat + 1
  endLine : d.endLine = some loc.finish.line
  endColumn : ∃ c, d.endColumn = some c ∧ c.toNat = loc.finish.column.toNat + 1

theorem Report.IsAbout.exists_location {report : Report} {n : Node} (h : report.IsAbout n) :
    ∃ loc, n.location? = some loc ∧ report.span = .ofLocation loc := by
  obtain ⟨messageId, data, fix, h⟩ := h
  unfold Outcome.atNode at h
  cases hloc : n.location? with
  | none => simp [hloc, Outcome.fail] at h
  | some loc =>
    simp only [hloc, List.cons.injEq, and_true] at h
    exact ⟨loc, rfl, by rw [← h]⟩

theorem toNat_add_one_iff (n : UInt32) :
    (n + 1).toNat = n.toNat + 1 ↔ n.toNat + 1 < Word.count32 := by
  have hadd : (n + 1).toNat = (n.toNat + 1) % Word.count32 := UInt32.toNat_add n 1
  rw [hadd]
  constructor
  · intro h
    rw [← h]
    exact Nat.mod_lt _ (by decide)
  · exact Nat.mod_eq_of_lt

/-- What is made at a node covers its location, if there is room for its columns. -/
theorem Linter.covers_of_madeAt {n : Node} (h : l.MadeAt file n d) :
    ∃ loc, n.location? = some loc ∧ (d.Covers loc ↔ loc.HasRoom) := by
  obtain ⟨r, -, report, habout, template, -, rfl⟩ := h
  obtain ⟨loc, hloc, hspan⟩ := habout.exists_location
  obtain ⟨messageId, span, data, fix⟩ := report
  obtain rfl : span = .ofLocation loc := hspan
  refine ⟨loc, hloc, fun hcovers => ?_, fun hroom => ?_⟩
  · obtain ⟨c, hc, hcolumn⟩ := hcovers.endColumn
    obtain rfl := Option.some.inj hc
    exact ⟨(toNat_add_one_iff _).1 hcovers.column, (toNat_add_one_iff _).1 hcolumn⟩
  · exact ⟨rfl, (toNat_add_one_iff _).2 hroom.1, rfl, _, rfl, (toNat_add_one_iff _).2 hroom.2⟩

/-- A handler that looks for nodes reports one that was visited, and overflows if there is no room
for its columns. -/
theorem Outcome.OnNodes.exists_isAbout {about : About} {ns : List Node} {o : Outcome}
    {report : Report} (h : o.OnNodes about ns) (hreport : report ∈ o.reports) :
    ∃ n ∈ ns, report.IsAbout n ∧
      ∀ loc, n.location? = some loc → (o.overflow = true ↔ ¬loc.HasRoom) := by
  cases h with
  | nothing => cases hreport
  | unexpectedShape detail => cases hreport
  | @atNode n messageId hn _ data fix =>
    refine ⟨n, hn, ⟨messageId, data, fix, ?_⟩, fun loc hloc =>
      Outcome.overflow_atNode_iff hloc messageId data fix⟩
    unfold Outcome.atNode at hreport ⊢
    split at hreport
    · rw [List.mem_singleton.1 hreport]
    · cases hreport

/-- What a linter finds by a rule that reports nodes is made at nodes that were visited, and if
nothing overflows, it covers them. -/
theorem Linter.exists_visit_of_mem_found (hfound : l.lint? file document = some (.ok found))
    (hd : d ∈ found) (hrules : ∀ r ∈ l.rules, r.about.name = d.rule → r.OnNodes) :
    ∃ t, program? document = some t ∧ ∃ v ∈ (l.walk file t).visits, l.MadeAt file v.node d ∧
      ∃ loc, v.node.location? = some loc ∧ d.Covers loc := by
  have hlint : l.lint file document = .ok found := by
    unfold lint? at hfound
    split at hfound
    · cases hfound
    · exact Option.some.inj hfound
  obtain ⟨hignored, t, ht, earlier, v, later, hvisits, ⟨r, s⟩, hactive, f, hf, report, hreport,
    hshows⟩ := exists_handler_of_mem_found hlint hd
  have hr := (mem_active_iff.1 hactive).1
  have hrule : r.about.name = d.rule := by
    obtain ⟨template, -, rfl⟩ := hshows
    rfl
  obtain ⟨n, hn, habout, hover⟩ :=
    (hrules r hr hrule file _ (Rule.mem_of_mem_handlersFor hf) _ v).exists_isAbout hreport
  have hvisited : n ∈ (t.visits []).map Visit.node := by
    rw [hvisits, List.map_append, List.map_cons, List.mem_append, List.mem_cons]
    rw [List.map_reverse, List.mem_cons, List.mem_reverse] at hn
    rcases hn with hn | hn
    · exact .inr (.inl hn)
    · exact .inl hn
  obtain ⟨w, hw, rfl⟩ := List.mem_map.1 hvisited
  have hmade : l.MadeAt file w.node d := ⟨r, hr, report, habout, hshows⟩
  obtain ⟨loc, hloc, hcovers⟩ := covers_of_madeAt hmade
  refine ⟨t, ht, w, ?_, hmade, loc, hloc, hcovers.2 ?_⟩
  · rw [walk_visits]
    exact List.mem_reverse.2 hw
  · -- Else the handler overflows, and nothing comes of the walk.
    refine Classical.byContradiction fun hroom => ?_
    have hnone := lint?_eq_none_iff.2 ⟨hignored, t, ht, earlier, v, later, hvisits, (r, s), hactive,
      f, hf, (hover loc hloc).2 hroom⟩
    rw [hfound] at hnone
    cases hnone

end

/-! ## Exact counts -/

/-- A report at a node overflows if and only if one of the columns is the last number of a word, and
linting if and only if a handler does that runs at a visit. Without overflow, all that is found by
the rules that need no more than the file is made at nodes that were visited and has their columns,
each one more, and so at least 1. The lines of all duplicates are added up exactly, and without
overflow, if and only if their sum is a number of a word. -/
theorem counts_exact_iff (l : Linter) (file : File) (document : Json) (jscpd : Jscpd) :
    (∀ n loc messageId data fix, n.location? = some loc →
      ((Outcome.atNode n messageId data fix).overflow = true ↔ ¬loc.HasRoom)) ∧
    (l.lint? file document = none ↔
      l.config.ignores file.name = false ∧ ∃ t, Linter.program? document = some t ∧
        ∃ earlier v later, t.visits [] = earlier ++ v :: later ∧
          ∃ r ∈ l.active, ∃ f ∈ r.1.handlersFor file v.tag,
            (f earlier.reverse v).overflow = true) ∧
    (∀ n d, l.MadeAt file n d → ∃ loc, n.location? = some loc ∧ (d.Covers loc ↔ loc.HasRoom)) ∧
    (∀ found, l.lint? file document = some (.ok found) → ∀ d ∈ found,
      (∀ r ∈ l.rules, r.about.name = d.rule → r ∈ fileRules) →
        ∃ t, Linter.program? document = some t ∧ ∃ v ∈ (l.walk file t).visits,
          l.MadeAt file v.node d ∧ ∃ loc, v.node.location? = some loc ∧ d.Covers loc) ∧
    ∀ sum, jscpd.duplicatedLines = some sum ↔
      sum.toNat = Word.total (jscpd.duplicates.map (·.lines)) := by
  refine ⟨fun n loc messageId data fix hloc =>
      Outcome.overflow_atNode_iff hloc messageId data fix,
    Linter.lint?_eq_none_iff, fun n d => Linter.covers_of_madeAt,
    fun found hfound d hd hrules => ?_, fun sum => Word.sum?_eq_some_iff⟩
  exact Linter.exists_visit_of_mem_found hfound hd fun r hr hname =>
    onNodes_of_mem_fileRules (hrules r hr hname)

/-- A call of `useEffect` from one column to another. -/
def effectBetween (start finish : Int) : Json :=
  .object [("callee", .object [("name", .text "useEffect"), ("type", .text "Identifier")]),
    ("loc", .object [("end", .object [("column", .int finish), ("line", .int 3)]),
      ("start", .object [("column", .int start), ("line", .int 3)])]),
    ("type", .text "CallExpression")]

/-- A program that is such a call. -/
def betweenProgram (start finish : Int) : Json :=
  .object [("body", effectBetween start finish), ("type", .text "Program")]

theorem program?_betweenProgram (start finish : Int) :
    Linter.program? (betweenProgram start finish) =
      some (.mk ⟨betweenProgram start finish, []⟩ [.mk ⟨effectBetween start finish, [.field "body"]⟩
        [.mk ⟨.object [("name", .text "useEffect"), ("type", .text "Identifier")],
          [.field "callee", .field "body"]⟩ []]]) := by
  simp [Linter.program?, betweenProgram, effectBetween, Tree.ofJson?, Tree.ofFields, Tree.node,
    nodeType?, Json.field?, Json.text?, List.lookup_cons, Node.plainFields, Node.type]

/-- A report by jscpd on two duplicates of so many lines. -/
def twoJscpd (lines lines' : UInt32) : Jscpd :=
  ⟨[⟨"typescript", lines, "", ⟨"a.ts", 1, 12⟩, ⟨"b.ts", 20, 31⟩⟩,
    ⟨"typescript", lines', "", ⟨"a.ts", 40, 48⟩, ⟨"b.ts", 60, 68⟩⟩]⟩

/-- The linter of all rules, for the report on two duplicates, which are in other files. -/
def betweenLinter (lines lines' : UInt32) : Linter := .ofProject {} "" {} (twoJscpd lines lines')

theorem lint_betweenProgram (lines lines' : UInt32) (start finish : Int) :
    (betweenLinter lines lines').lint ⟨"c.ts", ""⟩ (betweenProgram start finish) =
      .ok (((betweenLinter lines lines').made ⟨"c.ts", ""⟩
        (betweenProgram start finish)).mergeSort Diagnostic.before) :=
  Linter.lint_eq (by rw [program?_betweenProgram]; rfl)

theorem lint?_betweenProgram (lines lines' : UInt32) {start finish : Int}
    (h : (betweenLinter lines lines').overflows ⟨"c.ts", ""⟩ (betweenProgram start finish) =
      false) :
    (betweenLinter lines lines').lint? ⟨"c.ts", ""⟩ (betweenProgram start finish) =
      some (.ok (((betweenLinter lines lines').made ⟨"c.ts", ""⟩
        (betweenProgram start finish)).mergeSort Diagnostic.before)) := by
  rw [Linter.lint?, h, lint_betweenProgram]
  rfl

/-- The last columns and the last sum of lines that are exact. -/
theorem counts_exact_iff_between :
    ∃ d, (betweenLinter 4294967294 1).lint? ⟨"c.ts", ""⟩ (betweenProgram 0 4294967294) =
        some (.ok [d]) ∧
      d.rule = "no-use-effect" ∧ d.column = 1 ∧ d.endColumn = some 4294967295 ∧
      (∃ t, Linter.program? (betweenProgram 0 4294967294) = some t ∧
        ∃ v ∈ ((betweenLinter 4294967294 1).walk ⟨"c.ts", ""⟩ t).visits,
          ∃ loc, v.node.location? = some loc ∧ d.Covers loc) ∧
      (twoJscpd 4294967294 1).duplicatedLines = some 4294967295 := by
  have hmade : ((betweenLinter 4294967294 1).made ⟨"c.ts", ""⟩
      (betweenProgram 0 4294967294)).map (fun d => (d.rule, d.column, d.endColumn)) =
        [("no-use-effect", 1, some 4294967295)] := by
    rw [Linter.made, program?_betweenProgram]
    decide +kernel
  have hfits : (betweenLinter 4294967294 1).overflows ⟨"c.ts", ""⟩ (betweenProgram 0 4294967294) =
      false := by
    rw [Linter.overflows, program?_betweenProgram]
    decide +kernel
  obtain ⟨d, hd, hshown⟩ := List.map_eq_singleton_iff.1 hmade
  obtain ⟨hrule, hcolumns⟩ := Prod.mk.inj hshown
  obtain ⟨hcolumn, hendColumn⟩ := Prod.mk.inj hcolumns
  have hfound := lint?_betweenProgram 4294967294 1 hfits
  rw [hd, List.mergeSort_singleton] at hfound
  obtain ⟨-, -, -, hnodes, hsum⟩ := counts_exact_iff (betweenLinter 4294967294 1) ⟨"c.ts", ""⟩
    (betweenProgram 0 4294967294) (twoJscpd 4294967294 1)
  have hfile : ∀ r ∈ (betweenLinter 4294967294 1).rules, r.about.name = d.rule →
      r ∈ fileRules := by
    intro r hr hname
    rw [hrule] at hname
    rcases List.mem_append.1 hr with hr | hr
    · exact hr
    · simp only [projectRules, List.mem_cons, List.not_mem_nil, or_false] at hr
      rcases hr with rfl | rfl <;> exact absurd hname (by decide)
  obtain ⟨t, ht, v, hv, -, hcovers⟩ := hnodes [d] hfound d (List.mem_singleton_self d) hfile
  exact ⟨d, hfound, hrule, hcolumn, hendColumn, ⟨t, ht, v, hv, hcovers⟩, (hsum _).2 (by decide)⟩

/-- A call at the last column there is makes the linter overflow, and so do two duplicates whose
lines make up one more than a word has. -/
theorem last_column_overflows :
    Node.location? ⟨effectBetween 4294967295 4294967295, [.field "body"]⟩ =
      some ⟨⟨3, 4294967295⟩, ⟨3, 4294967295⟩⟩ ∧
    (betweenLinter 4294967295 1).lint? ⟨"c.ts", ""⟩ (betweenProgram 4294967295 4294967295) = none ∧
    Jscpd.decode (Json.Encode.encode (twoJscpd 4294967295 1)) = .ok (twoJscpd 4294967295 1) ∧
    Word.total ((twoJscpd 4294967295 1).duplicates.map (·.lines)) = 4294967296 ∧
    (twoJscpd 4294967295 1).duplicatedLines = none := by
  have hover : (betweenLinter 4294967295 1).overflows ⟨"c.ts", ""⟩
      (betweenProgram 4294967295 4294967295) = true := by
    rw [Linter.overflows, program?_betweenProgram]
    decide +kernel
  refine ⟨by decide +kernel, ?_, by decide +kernel, by decide, by decide⟩
  rw [Linter.lint?, hover]
  rfl

end Lint

end Steward
