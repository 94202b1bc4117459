import Steward.Proofs.Lint.Builtin
import Steward.Proofs.Tool.SameFile

/-!
# What is shown of the reports on a project

The rules that show reports find in a program what the entries say whose paths name the file, and
nothing else. A path below the root names the file there and all files below the root whose paths
end with it.

* `Linter.exists_report_of_mem_found`, `Linter.exists_mem_found_of_report`: the findings of a rule
  that makes its reports at programs.
* `SaidByKnip`, `SaidByJscpd`: what reports say of a path.
* `reported_below_root`: what is said of a path below the root is shown in the file there, and in
  another file only where that file's path ends with the path.
-/

namespace Steward.Lint

open Tool

/-! ## Rules that make their reports at programs -/

/-- The finding that a rule makes of a report in a file. -/
def Linter.Shows (l : Linter) (r : Rule) (file : File) (report : Report) (d : Diagnostic) : Prop :=
  ∃ template, r.about.template? report.messageId = some template ∧
    d = report.toDiagnostic r.about (l.severity r) file template

/-- A rule that makes the same reports at all programs in a file, and none elsewhere. -/
def Rule.AtPrograms (r : Rule) (reports : File → List Report) : Prop :=
  ∀ file, r.handlers file = [("Program", fun _ _ => { reports := reports file })]

section

variable {about : About} {s : Severity} {file : File} {rs : List Report} {d : Diagnostic}

theorem mem_taken_iff {fault : Option Fault}
    (h : ∀ r ∈ rs, (about.template? r.messageId).isSome = true) :
    d ∈ (taken about s file fault rs).1 ↔
      ∃ r ∈ rs, ∃ template, about.template? r.messageId = some template ∧
        d = r.toDiagnostic about s file template := by
  induction rs with
  | nil => simp [taken]
  | cons r rest ih =>
    obtain ⟨template, ht⟩ := Option.isSome_iff_exists.1 (h r List.mem_cons_self)
    have hrest := ih fun r hr => h r (List.mem_cons_of_mem _ hr)
    simp [taken, ht, hrest]

theorem Outcome.Plain.known (h : Outcome.Plain about { reports := rs }) :
    ∀ r ∈ rs, (about.template? r.messageId).isSome = true := by
  cases h with
  | reports h => exact h

theorem Rule.AtPrograms.known {r : Rule} {reports : File → List Report} (hat : r.AtPrograms reports)
    (hplain : r.Plain) (file : File) (v : Visit) :
    ∀ report ∈ reports file, (r.about.template? report.messageId).isSome = true := by
  have hmem : ("Program", fun _ _ => { reports := reports file }) ∈ r.handlers file := by
    rw [hat file]
    exact List.mem_singleton_self _
  exact (hplain file _ hmem [] v).known

theorem mem_foundAt_iff {r : Rule} {reports : File → List Report} {before : List Visit} {v : Visit}
    (hat : r.AtPrograms reports) (hplain : r.Plain) :
    d ∈ foundAt file before v (r, s) ↔ v.tag = "Program" ∧
      ∃ report ∈ reports file, ∃ template, r.about.template? report.messageId = some template ∧
        d = report.toDiagnostic r.about s file template := by
  have hknown := hat.known hplain file v
  unfold foundAt
  by_cases htag : v.tag = "Program"
  · have hhandlers : r.handlersFor file v.tag = [fun _ _ => { reports := reports file }] := by
      simp [Rule.handlersFor, hat file, htag]
    rw [hhandlers, List.flatMap_singleton]
    exact (mem_taken_iff hknown).trans (and_iff_right htag).symm
  · have hhandlers : r.handlersFor file v.tag = [] := by
      simp [Rule.handlersFor, hat file, Ne.symm htag]
    simp [hhandlers, htag]

/-- What is found at visits is found at one of them, after those that come before it. -/
theorem exists_foundAt_of_mem {before vs : List Visit} {rules : List (Rule × Severity)}
    (h : d ∈ foundFrom file rules before vs) :
    ∃ earlier v later, vs = earlier ++ v :: later ∧
      ∃ r ∈ rules, d ∈ foundAt file (earlier.reverse ++ before) v r := by
  induction vs generalizing before with
  | nil => cases h
  | cons v rest ih =>
    rcases List.mem_append.1 h with h | h
    · obtain ⟨r, hr, hd⟩ := List.mem_flatMap.1 h
      exact ⟨[], v, rest, rfl, r, hr, hd⟩
    · obtain ⟨earlier, v', later, rfl, r, hr, hd⟩ := ih h
      refine ⟨v :: earlier, v', later, rfl, r, hr, ?_⟩
      rwa [List.reverse_cons, List.append_assoc]

end

namespace Linter

variable {l : Linter} {file : File} {document : Json} {r : Rule} {reports : File → List Report}
  {d : Diagnostic} {found : List Diagnostic}

theorem mem_active_iff {s : Severity} :
    (r, s) ∈ l.active ↔ r ∈ l.rules ∧ s = l.severity r ∧ s ≠ .off := by
  simp only [active, List.mem_filter, List.mem_map, Prod.mk.injEq, decide_eq_true_eq]
  constructor
  · rintro ⟨⟨r', hr', rfl, rfl⟩, hs⟩
    exact ⟨hr', rfl, hs⟩
  · rintro ⟨hr, rfl, hs⟩
    exact ⟨⟨r, hr, rfl, rfl⟩, hs⟩

theorem made_eq_foundFrom {t : Tree} (hignored : l.config.ignores file.name = false)
    (ht : program? document = some t) :
    l.made file document = foundFrom file l.active [] (t.visits []) := by
  simp only [made, hignored, ht, walk_findings]
  rfl

/-- What was found is what was made, in another order. -/
theorem mem_found_iff (h : (program? document).isSome = true)
    (hfound : l.lint file document = .ok found) : d ∈ found ↔ d ∈ l.made file document := by
  rw [lint_eq h] at hfound
  obtain rfl := Except.ok.inj hfound
  exact List.mem_mergeSort

/-- What was found in a document was found at the visits of its tree. -/
theorem exists_tree_of_mem_found (hfound : l.lint file document = .ok found) (hd : d ∈ found) :
    l.config.ignores file.name = false ∧
      ∃ t, program? document = some t ∧ d ∈ foundFrom file l.active [] (t.visits []) := by
  unfold lint at hfound
  split at hfound
  · obtain rfl := Except.ok.inj hfound
    cases hd
  · next hignored =>
    refine ⟨Bool.eq_false_iff.2 hignored, ?_⟩
    cases ht : program? document with
    | none => simp [ht] at hfound
    | some t =>
      rw [ht] at hfound
      obtain rfl := Except.ok.inj hfound
      refine ⟨t, rfl, ?_⟩
      rw [← walk_findings]
      exact List.mem_mergeSort.1 hd

/-- The findings of a rule that makes its reports at programs show these reports. -/
theorem exists_report_of_mem_found (hnames : (l.rules.map fun r => r.about.name).Nodup)
    (hr : r ∈ l.rules) (hplain : r.Plain) (hat : r.AtPrograms reports)
    (h : (program? document).isSome = true) (hfound : l.lint file document = .ok found)
    (hd : d ∈ found) (hrule : d.rule = r.about.name) :
    ∃ report ∈ reports file, l.Shows r file report d := by
  rw [mem_found_iff h hfound] at hd
  cases hignored : l.config.ignores file.name with
  | true => simp [made, hignored] at hd
  | false =>
    cases ht : program? document with
    | none => simp [made, ht] at hd
    | some t =>
      rw [made_eq_foundFrom hignored ht] at hd
      obtain ⟨_, v, _, -, ⟨r', s⟩, hactive, hd⟩ := exists_foundAt_of_mem hd
      obtain ⟨hr', rfl, -⟩ := mem_active_iff.1 hactive
      -- No other rule has the name of `r`, so the finding is one of `r`.
      obtain rfl : r' = r :=
        List.inj_on_of_nodup_map hnames hr' hr ((rule_of_mem_foundAt hd).symm.trans hrule)
      exact ((mem_foundAt_iff hat hplain).1 hd).2

/-- In a program, each of the reports is shown, unless the rule is off. -/
theorem exists_mem_found_of_report (hr : r ∈ l.rules) (hplain : r.Plain)
    (hat : r.AtPrograms reports) (hon : l.severity r ≠ .off)
    (hignored : l.config.ignores file.name = false) (h : (program? document).isSome = true)
    (hfound : l.lint file document = .ok found) {report : Report}
    (hreport : report ∈ reports file) : ∃ d ∈ found, l.Shows r file report d := by
  obtain ⟨⟨n, ts⟩, ht⟩ := Option.isSome_iff_exists.1 h
  have htype : n.type = "Program" := of_decide_eq_true (Option.filter_eq_some_iff.1 ht).2
  obtain ⟨template, htemplate⟩ :=
    Option.isSome_iff_exists.1 (hat.known hplain file (.enter n []) report hreport)
  have hfirst : report.toDiagnostic r.about (l.severity r) file template ∈
      foundAt file [] (.enter n []) (r, l.severity r) :=
    (mem_foundAt_iff hat hplain).2 ⟨htype, report, hreport, template, htemplate, rfl⟩
  refine ⟨_, ?_, template, htemplate, rfl⟩
  rw [mem_found_iff h hfound, made_eq_foundFrom hignored ht]
  exact List.mem_append_left _
    (List.mem_flatMap.2 ⟨_, mem_active_iff.2 ⟨hr, rfl, hon⟩, hfirst⟩)

end Linter

/-! ## What reports say of a path -/

/-- The report of a file that nothing imports. -/
def unusedFileReport : Report := { messageId := "unusedFile", span := pointAt none none }

/-- The reports of the unused exports and types of an entry. -/
def entryReports (i : Knip.Issues) : List Report :=
  i.exports.map (unusedReport "unusedExport") ++ i.types.map (unusedReport "unusedType")

/-- What a report by knip says of a path. -/
inductive SaidByKnip (k : Knip) (path : String) : Report → Prop
  | unusedFile (h : path ∈ k.files) : SaidByKnip k path unusedFileReport
  | entry {i : Knip.Issues} {report : Report} (hi : i ∈ k.issues) (hpath : i.file = path)
      (hreport : report ∈ entryReports i) : SaidByKnip k path report

/-- What a report by jscpd says of a path. -/
inductive SaidByJscpd (j : Jscpd) (path : String) : Report → Prop
  | first {d : Jscpd.Duplicate} (hd : d ∈ j.duplicates) (hpath : d.first.file = path) :
      SaidByJscpd j path (cloneReport ⟨d.first, d.second, d.lines⟩)
  | second {d : Jscpd.Duplicate} (hd : d ∈ j.duplicates) (hpath : d.second.file = path) :
      SaidByJscpd j path (cloneReport ⟨d.second, d.first, d.lines⟩)

section

variable {k : Knip} {j : Jscpd} {file root path : String} {report : Report}

theorem unusedReports_eq : unusedReports k file root =
    (if k.isUnused file root then [unusedFileReport] else []) ++
      ((k.issuesOf? file root).map entryReports).getD [] := by
  unfold unusedReports
  cases k.issuesOf? file root <;> rfl

theorem issuesOf?_eq_some {i : Knip.Issues} (h : k.issuesOf? file root = some i) :
    i ∈ k.issues ∧ isSameFile i.file file root = true := by
  unfold Knip.issuesOf? at h
  have hsame := List.find?_some h
  exact ⟨List.mem_of_find?_eq_some h, hsame⟩

theorem saidByKnip_of_mem (h : report ∈ unusedReports k file root) :
    ∃ path, isSameFile path file root = true ∧ SaidByKnip k path report := by
  rw [unusedReports_eq] at h
  rcases List.mem_append.1 h with h | h
  · cases hunused : k.isUnused file root with
    | false => simp [hunused] at h
    | true =>
      obtain ⟨path, hpath, hsame⟩ := List.any_eq_true.1 hunused
      obtain rfl : report = unusedFileReport := by simpa [hunused] using h
      exact ⟨path, hsame, .unusedFile hpath⟩
  · cases hentry : k.issuesOf? file root with
    | none => simp [hentry] at h
    | some i =>
      obtain ⟨hi, hsame⟩ := issuesOf?_eq_some hentry
      rw [hentry] at h
      exact ⟨i.file, hsame, .entry hi rfl h⟩

theorem mem_unusedReports_of_files (hpath : path ∈ k.files)
    (hsame : isSameFile path file root = true) : unusedFileReport ∈ unusedReports k file root := by
  have hunused : k.isUnused file root = true := List.any_eq_true.2 ⟨path, hpath, hsame⟩
  simp [unusedReports_eq, hunused]

/-- The first entry whose path names the file is the one that is shown. -/
theorem mem_unusedReports_of_entry {earlier later : List Knip.Issues} {i : Knip.Issues}
    (hk : k.issues = earlier ++ i :: later) (hsame : isSameFile i.file file root = true)
    (hearlier : ∀ e ∈ earlier, isSameFile e.file file root = false)
    (hreport : report ∈ entryReports i) : report ∈ unusedReports k file root := by
  have hnone : earlier.find? (fun i => isSameFile i.file file root) = none := by
    simpa using hearlier
  have hentry : k.issuesOf? file root = some i := by
    simp [Knip.issuesOf?, hk, List.find?_append, hnone, hsame]
  rw [unusedReports_eq, hentry]
  exact List.mem_append_right _ hreport

theorem mem_cloneReports_iff : report ∈ (j.clonesIn file root).map cloneReport ↔
    ∃ path, isSameFile path file root = true ∧ SaidByJscpd j path report := by
  constructor
  · intro h
    obtain ⟨c, hc, rfl⟩ := List.mem_map.1 h
    obtain ⟨d, hd, hc⟩ := List.mem_flatMap.1 hc
    rcases List.mem_append.1 hc with hc | hc
    · obtain ⟨hsame, hc⟩ := List.mem_ite_nil_right.1 hc
      obtain rfl := List.mem_singleton.1 hc
      exact ⟨_, hsame, .first hd rfl⟩
    · obtain ⟨hsame, hc⟩ := List.mem_ite_nil_right.1 hc
      obtain rfl := List.mem_singleton.1 hc
      exact ⟨_, hsame, .second hd rfl⟩
  · rintro ⟨path, hsame, hsaid⟩
    cases hsaid with
    | first hd hpath =>
      subst hpath
      exact List.mem_map_of_mem
        (List.mem_flatMap.2 ⟨_, hd, List.mem_append_left _ (by simp [hsame])⟩)
    | second hd hpath =>
      subst hpath
      exact List.mem_map_of_mem
        (List.mem_flatMap.2 ⟨_, hd, List.mem_append_right _ (by simp [hsame])⟩)

end

/-! ## What is shown below a root -/

/-- The findings in a file show what the reports on the project say of a path, by each of the rules
that is not off; of the entries by knip it is the first for the file. -/
structure Linter.ShowsSaid (l : Linter) (root : String) (knip : Knip) (jscpd : Jscpd)
    (path : String) (file : File) (found : List Diagnostic) : Prop where
  unusedFile : l.severity (noUnusedExports root knip) ≠ .off → path ∈ knip.files →
    ∃ d ∈ found, l.Shows (noUnusedExports root knip) file unusedFileReport d
  entry : l.severity (noUnusedExports root knip) ≠ .off →
    ∀ earlier i later, knip.issues = earlier ++ i :: later → i.file = path →
      (∀ e ∈ earlier, isSameFile e.file file.name root = false) →
      ∀ report ∈ entryReports i, ∃ d ∈ found, l.Shows (noUnusedExports root knip) file report d
  clones : l.severity (noCodeDuplication root jscpd) ≠ .off →
    ∀ report, SaidByJscpd jscpd path report →
      ∃ d ∈ found, l.Shows (noCodeDuplication root jscpd) file report d

/-- The findings in a file show of the reports on the project what they say of other paths than the
given one. -/
structure Linter.ShowsOthers (l : Linter) (root : String) (knip : Knip) (jscpd : Jscpd)
    (path : String) (file : File) (found : List Diagnostic) : Prop where
  unusedExports : ∀ d ∈ found, d.rule = (noUnusedExports root knip).about.name →
    ∃ other ≠ path, isSameFile other file.name root = true ∧
      ∃ report, SaidByKnip knip other report ∧ l.Shows (noUnusedExports root knip) file report d
  clones : ∀ d ∈ found, d.rule = (noCodeDuplication root jscpd).about.name →
    ∃ other ≠ path, isSameFile other file.name root = true ∧
      ∃ report, SaidByJscpd jscpd other report ∧
        l.Shows (noCodeDuplication root jscpd) file report d

section

variable {config : Config} {root path : String} {knip : Knip} {jscpd : Jscpd} {file : File}
  {document : Json} {found : List Diagnostic}

theorem atPrograms_noUnusedExports :
    (noUnusedExports root knip).AtPrograms fun file => unusedReports knip file.name root :=
  fun _ => rfl

theorem atPrograms_noCodeDuplication :
    (noCodeDuplication root jscpd).AtPrograms fun file =>
      (jscpd.clonesIn file.name root).map cloneReport :=
  fun _ => rfl

theorem noUnusedExports_mem :
    noUnusedExports root knip ∈ (Linter.ofProject config root knip jscpd).rules := by
  simp [Linter.ofProject, projectRules]

theorem noCodeDuplication_mem :
    noCodeDuplication root jscpd ∈ (Linter.ofProject config root knip jscpd).rules := by
  simp [Linter.ofProject, projectRules]

/-- What the reports say of a path that names a file is shown in that file. -/
theorem lint_showsSaid (hsame : isSameFile path file.name root = true)
    (hignored : config.ignores file.name = false) (h : (Linter.program? document).isSome = true)
    (hfound : (Linter.ofProject config root knip jscpd).lint file document = .ok found) :
    (Linter.ofProject config root knip jscpd).ShowsSaid root knip jscpd path file found where
  unusedFile hon hpath :=
    Linter.exists_mem_found_of_report noUnusedExports_mem (plain_noUnusedExports root knip)
      atPrograms_noUnusedExports hon hignored h hfound (mem_unusedReports_of_files hpath hsame)
  entry hon earlier i later hk hi hearlier report hreport := by
    subst hi
    exact Linter.exists_mem_found_of_report noUnusedExports_mem (plain_noUnusedExports root knip)
      atPrograms_noUnusedExports hon hignored h hfound
      (mem_unusedReports_of_entry hk hsame hearlier hreport)
  clones hon report hsaid :=
    Linter.exists_mem_found_of_report noCodeDuplication_mem (plain_noCodeDuplication root jscpd)
      atPrograms_noCodeDuplication hon hignored h hfound
      (mem_cloneReports_iff.2 ⟨path, hsame, hsaid⟩)

/-- What the reports say of a path that does not name a file is not shown in that file. -/
theorem lint_showsOthers (hother : isSameFile path file.name root = false)
    (h : (Linter.program? document).isSome = true)
    (hfound : (Linter.ofProject config root knip jscpd).lint file document = .ok found) :
    (Linter.ofProject config root knip jscpd).ShowsOthers root knip jscpd path file found := by
  have hne : ∀ other, isSameFile other file.name root = true → other ≠ path := by
    rintro other hsame rfl
    rw [hother] at hsame
    cases hsame
  constructor
  · intro d hd hrule
    obtain ⟨report, hreport, hshows⟩ := Linter.exists_report_of_mem_found
      (nodup_names config root knip jscpd) noUnusedExports_mem (plain_noUnusedExports root knip)
      atPrograms_noUnusedExports h hfound hd hrule
    obtain ⟨other, hsame, hsaid⟩ := saidByKnip_of_mem hreport
    exact ⟨other, hne other hsame, hsame, report, hsaid, hshows⟩
  · intro d hd hrule
    obtain ⟨report, hreport, hshows⟩ := Linter.exists_report_of_mem_found
      (nodup_names config root knip jscpd) noCodeDuplication_mem
      (plain_noCodeDuplication root jscpd) atPrograms_noCodeDuplication h hfound hd hrule
    obtain ⟨other, hsame, hsaid⟩ := mem_cloneReports_iff.1 hreport
    exact ⟨other, hne other hsame, hsame, report, hsaid, hshows⟩

end

/-- A path below the root names the file there, and what the reports say of it is shown in that
file. It names another file below the root if and only if that file's path ends with it, and where
it names none, what is shown in that file is said of other paths. -/
theorem reported_below_root {root r q : String} (hroot : IsRoot root) (hr : IsInner r)
    (hq : IsInner q) :
    isSameFile r (below root r) root = true ∧
    (isSameFile r (below root q) root = true ↔ '/' :: r.toList <:+ (below root q).toList) ∧
    ∀ config knip jscpd source document, (Linter.program? document).isSome = true →
      ∃ own other,
        (Linter.ofProject config root knip jscpd).lint ⟨below root r, source⟩ document = .ok own ∧
        (Linter.ofProject config root knip jscpd).lint ⟨below root q, source⟩ document =
          .ok other ∧
        (config.ignores (below root r) = false →
          (Linter.ofProject config root knip jscpd).ShowsSaid root knip jscpd r
            ⟨below root r, source⟩ own) ∧
        (¬ '/' :: r.toList <:+ (below root q).toList →
          (Linter.ofProject config root knip jscpd).ShowsOthers root knip jscpd r
            ⟨below root q, source⟩ other) := by
  have hends := isSameFile_below_iff hroot hr hq
  refine ⟨isSameFile_below_self hroot hr, hends, fun config knip jscpd source document h => ?_⟩
  refine ⟨_, _, Linter.lint_eq h, Linter.lint_eq h, fun hignored => ?_, fun hnot => ?_⟩
  · exact lint_showsSaid (isSameFile_below_self hroot hr) hignored h (Linter.lint_eq h)
  · have hother : isSameFile r (below root q) root = false :=
      Bool.eq_false_iff.2 fun hsame => hnot (hends.1 hsame)
    exact lint_showsOthers hother h (Linter.lint_eq h)

/-- A program without statements. -/
def bareProgram : Json := .object [("type", .text "Program")]

theorem program?_bareProgram :
    Linter.program? bareProgram = some (.mk ⟨bareProgram, []⟩ []) := by
  simp [Linter.program?, bareProgram, Tree.ofJson?, Tree.ofFields, Tree.node, nodeType?,
    Json.field?, Json.text?, Node.plainFields, Node.type]

theorem isRoot_repo : IsRoot "/repo" := ⟨.inl rfl, by decide, by decide⟩

theorem isInner_a : IsInner "a.ts" :=
  ⟨by decide, not_isAbsolute (by decide) (by decide), by decide, by decide⟩

theorem isInner_b : IsInner "b.ts" :=
  ⟨by decide, not_isAbsolute (by decide) (by decide), by decide, by decide⟩

theorem isInner_src_a : IsInner "src/a.ts" :=
  ⟨by decide, not_isAbsolute (by decide) (by decide), by decide, by decide⟩

/-- A report by knip on a file and on one below another directory that has its name. -/
def tailKnip : Knip where
  files := ["a.ts"]
  issues := [⟨"a.ts", [], [], [], [⟨"main", some 3, some 14⟩], []⟩,
    ⟨"src/a.ts", [], [], [], [⟨"helper", some 8, some 14⟩], []⟩]

/-- A report by jscpd on a file. -/
def tailJscpd : Jscpd := ⟨[⟨"typescript", 12, "", ⟨"a.ts", 1, 12⟩, ⟨"b.ts", 20, 31⟩⟩]⟩

theorem isSome_program?_bareProgram : (Linter.program? bareProgram).isSome = true := by
  rw [program?_bareProgram]
  rfl

theorem reported_below_root_repo : IsRoot "/repo" ∧ IsInner "a.ts" ∧ IsInner "b.ts" ∧
    isSameFile "a.ts" (below "/repo" "a.ts") "/repo" = true ∧
    isSameFile "a.ts" (below "/repo" "b.ts") "/repo" = false ∧
    ∃ own other,
      (Linter.ofProject {} "/repo" tailKnip tailJscpd).lint ⟨below "/repo" "a.ts", ""⟩ bareProgram =
        .ok own ∧
      (Linter.ofProject {} "/repo" tailKnip tailJscpd).lint ⟨below "/repo" "b.ts", ""⟩ bareProgram =
        .ok other ∧
      (∃ d ∈ own, d.rule = "no-unused-exports" ∧
        d.message = "File is not imported anywhere (knip).") ∧
      (Linter.ofProject {} "/repo" tailKnip tailJscpd).ShowsOthers "/repo" tailKnip tailJscpd
        "a.ts" ⟨below "/repo" "b.ts", ""⟩ other := by
  obtain ⟨hsame, hends, hlint⟩ := reported_below_root isRoot_repo isInner_a isInner_b
  have hnot : ¬ '/' :: "a.ts".toList <:+ (below "/repo" "b.ts").toList := by decide
  obtain ⟨own, other, hown, hother, hshows, hothers⟩ :=
    hlint {} tailKnip tailJscpd "" bareProgram isSome_program?_bareProgram
  obtain ⟨d, hd, template, ht, rfl⟩ := (hshows rfl).unusedFile (by decide) (by decide)
  have htemplate : (noUnusedExports "/repo" tailKnip).about.template? "unusedFile" =
      some "File is not imported anywhere (knip)." := by decide
  obtain rfl := Option.some.inj (htemplate.symm.trans ht)
  exact ⟨isRoot_repo, isInner_a, isInner_b, hsame, Bool.eq_false_iff.2 fun h => hnot (hends.1 h),
    own, other, hown, hother, ⟨_, hd, rfl, by decide⟩, hothers hnot⟩

/-- What is said of a file is shown in a file of the same name below another directory, and hides
what is said of that one. -/
theorem tail_named : IsRoot "/repo" ∧ IsInner "a.ts" ∧ IsInner "src/a.ts" ∧ "a.ts" ≠ "src/a.ts" ∧
    isSameFile "a.ts" (below "/repo" "src/a.ts") "/repo" = true ∧
    ∃ found, (Linter.ofProject {} "/repo" tailKnip tailJscpd).lint
        ⟨below "/repo" "src/a.ts", ""⟩ bareProgram = .ok found ∧
      (found.map fun d => (d.rule, d.message)).Perm
        [("no-unused-exports", "File is not imported anywhere (knip)."),
          ("no-unused-exports", "`main` is exported but never imported (knip)."),
          ("no-code-duplication", "12 lines duplicated in b.ts:20 (jscpd).")] := by
  refine ⟨isRoot_repo, isInner_a, isInner_src_a, by decide, by decide +kernel, _,
    Linter.lint_eq isSome_program?_bareProgram, ?_⟩
  have hmade : ((Linter.ofProject {} "/repo" tailKnip tailJscpd).made
      ⟨below "/repo" "src/a.ts", ""⟩ bareProgram).map (fun d => (d.rule, d.message)) =
        [("no-unused-exports", "File is not imported anywhere (knip)."),
          ("no-unused-exports", "`main` is exported but never imported (knip)."),
          ("no-code-duplication", "12 lines duplicated in b.ts:20 (jscpd).")] := by
    rw [Linter.made, program?_bareProgram]
    decide +kernel
  rw [← hmade]
  exact (List.mergeSort_perm _ _).map _

end Steward.Lint
