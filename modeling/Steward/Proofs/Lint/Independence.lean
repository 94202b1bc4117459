import Mathlib.Data.List.Nodup
import Steward.Proofs.Lint.Order
import Steward.Proofs.Lint.Walk

/-!
# Independent rules

No rule has a part in what the others find. Switching a rule off takes its findings away and leaves
the others as they are and in order; another severity shows in the rule's own findings and nowhere
else; and a handler that fails gives up its own report and no more.

* `Rule.Plain`: a rule each of whose handlers either fails or makes reports that have messages.
* `Linter.made`: the findings in the order in which they are made.
* `Linter.Independent`: what it is for the rules of a linter to be independent in a document.
* `Linter.independent_of_plain`: plain rules with different names are.
-/

namespace Steward.Lint

/-! ## Severities -/

namespace Config

theorem severity_withRule (c : Config) (name rule : String) (s default : Severity) :
    (c.withRule name s).severity rule default =
      if rule = name then s else c.severity rule default := by
  by_cases h : rule = name
  · simp [withRule, severity, h]
  · have hne : (rule == name) = false := by simpa using h
    simp [withRule, severity, List.lookup_cons, hne, h]

end Config

namespace Linter

variable {l : Linter} {name : String} {s : Severity}

/-- The linter with another severity of one rule. -/
def withRule (l : Linter) (name : String) (s : Severity) : Linter :=
  { l with config := l.config.withRule name s }

theorem severity_withRule (r : Rule) :
    (l.withRule name s).severity r = if r.about.name = name then s else l.severity r :=
  l.config.severity_withRule name r.about.name s r.about.kind.severity

/-- The rule with its severity, unless it is off. -/
def activation (l : Linter) (r : Rule) : Option (Rule × Severity) :=
  if l.severity r = .off then none else some (r, l.severity r)

theorem active_eq : l.active = l.rules.filterMap l.activation := by
  rw [active, ← List.filterMap_eq_filter, List.filterMap_map]
  refine List.filterMap_congr fun r _ => ?_
  by_cases hoff : l.severity r = .off <;> simp [activation, Option.guard, hoff]

/-- A rule that is switched off is left out. -/
theorem active_withRule_off :
    (l.withRule name .off).active = l.active.filter fun r => r.1.about.name ≠ name := by
  rw [active_eq, active_eq, List.filter_filterMap]
  refine List.filterMap_congr fun r _ => ?_
  by_cases hname : r.about.name = name <;> by_cases hoff : l.severity r = .off <;>
    simp [activation, severity_withRule, Option.filter, hname, hoff]

/-- A rule with another severity keeps its place. -/
theorem active_withRule (hs : s ≠ .off)
    (hon : ∀ r ∈ l.rules, r.about.name = name → l.severity r ≠ .off) :
    (l.withRule name s).active =
      l.active.map fun r => (r.1, if r.1.about.name = name then s else r.2) := by
  rw [active_eq, active_eq, List.map_filterMap]
  refine List.filterMap_congr fun r hr => ?_
  by_cases hname : r.about.name = name
  · simp [activation, severity_withRule, hname, hs, hon r hr hname]
  · by_cases hoff : l.severity r = .off <;>
      simp [activation, severity_withRule, hname, hoff]

theorem mem_rules_of_mem_active {r : Rule × Severity} (h : r ∈ l.active) : r.1 ∈ l.rules := by
  obtain ⟨r', hr', rfl⟩ := List.mem_map.1 (List.mem_filter.1 h).1
  exact hr'

end Linter

/-! ## The findings of one rule -/

/-- The finding with another severity, if it is one of a rule. -/
def Diagnostic.regrade (name : String) (s : Severity) (d : Diagnostic) : Diagnostic :=
  if d.rule = name then { d with severity := s } else d

theorem Diagnostic.before_regrade (name : String) (s : Severity) (a b : Diagnostic) :
    (a.regrade name s).before (b.regrade name s) = a.before b := by
  unfold regrade
  split <;> split <;> rfl

section

variable {about : About} {s s' : Severity} {file : File} {fault : Option Fault}
  {reports : List Report} {before vs : List Visit} {v : Visit} {name : String}

/-- What is taken of reports are findings of them. -/
theorem exists_report_of_mem_taken {d : Diagnostic}
    (h : d ∈ (taken about s file fault reports).1) :
    ∃ r ∈ reports, ∃ template, about.template? r.messageId = some template ∧
      d = r.toDiagnostic about s file template := by
  induction reports with
  | nil => cases h
  | cons r rest ih =>
    cases ht : about.template? r.messageId with
    | none => simp [taken, ht] at h
    | some template =>
      simp only [taken, ht, List.mem_cons] at h
      rcases h with rfl | h
      · exact ⟨r, List.mem_cons_self, template, ht, rfl⟩
      · obtain ⟨r', hr', hd⟩ := ih h
        exact ⟨r', List.mem_cons_of_mem r hr', hd⟩

theorem rule_of_mem_taken {d : Diagnostic} (h : d ∈ (taken about s file fault reports).1) :
    d.rule = about.name := by
  obtain ⟨r, -, template, -, rfl⟩ := exists_report_of_mem_taken h
  rfl

theorem rule_of_mem_foundAt {r : Rule × Severity} {d : Diagnostic}
    (h : d ∈ foundAt file before v r) : d.rule = r.1.about.name := by
  obtain ⟨f, -, hd⟩ := List.mem_flatMap.1 h
  exact rule_of_mem_taken hd

theorem taken_regrade :
    (taken about s' file fault reports).1 =
      (taken about s file fault reports).1.map fun d => { d with severity := s' } := by
  induction reports with
  | nil => rfl
  | cons r rest ih =>
    cases ht : about.template? r.messageId with
    | none => simp [taken, ht]
    | some template =>
      simp only [taken, ht, ih, List.map_cons]
      rfl

theorem foundAt_regrade (r : Rule) (s s' : Severity) :
    foundAt file before v (r, s') =
      (foundAt file before v (r, s)).map fun d => { d with severity := s' } := by
  rw [foundAt, foundAt, List.map_flatMap]
  exact List.flatMap_congr fun f _ => taken_regrade

/-! ## The findings of all rules -/

/-- To leave a rule's findings out is to leave the rule out. -/
theorem filter_flatMap_foundAt (rules : List (Rule × Severity)) :
    (rules.flatMap (foundAt file before v)).filter (fun d => d.rule ≠ name) =
      (rules.filter fun r => r.1.about.name ≠ name).flatMap (foundAt file before v) := by
  induction rules with
  | nil => rfl
  | cons r rest ih =>
    rw [List.flatMap_cons, List.filter_append, ih]
    by_cases hname : r.1.about.name = name
    · have hnone : (foundAt file before v r).filter (fun d => d.rule ≠ name) = [] :=
        List.filter_eq_nil_iff.2 fun d hd => by simp [rule_of_mem_foundAt hd, hname]
      rw [hnone, List.nil_append, List.filter_cons_of_neg (by simp [hname])]
    · have hall : (foundAt file before v r).filter (fun d => d.rule ≠ name) =
          foundAt file before v r :=
        List.filter_eq_self.2 fun d hd => by simp [rule_of_mem_foundAt hd, hname]
      rw [hall, List.filter_cons_of_pos (by simp [hname]), List.flatMap_cons]

theorem filter_foundFrom (rules : List (Rule × Severity)) :
    (foundFrom file rules before vs).filter (fun d => d.rule ≠ name) =
      foundFrom file (rules.filter fun r => r.1.about.name ≠ name) before vs := by
  induction vs generalizing before with
  | nil => rfl
  | cons v rest ih =>
    rw [foundFrom, foundFrom, List.filter_append, ih, filter_flatMap_foundAt]

/-- To grade a rule's findings anew is to give the rule another severity. -/
theorem map_regrade_foundAt (r : Rule × Severity) :
    (foundAt file before v r).map (Diagnostic.regrade name s) =
      foundAt file before v (r.1, if r.1.about.name = name then s else r.2) := by
  obtain ⟨r, s₀⟩ := r
  by_cases hname : r.about.name = name
  · rw [if_pos hname, foundAt_regrade r s₀ s]
    refine List.map_congr_left fun d hd => if_pos ?_
    rw [rule_of_mem_foundAt hd, hname]
  · rw [if_neg hname]
    refine (List.map_congr_left fun d hd => if_neg ?_).trans (List.map_id _)
    rw [rule_of_mem_foundAt hd]
    exact hname

theorem map_regrade_foundFrom (rules : List (Rule × Severity)) :
    (foundFrom file rules before vs).map (Diagnostic.regrade name s) =
      foundFrom file (rules.map fun r => (r.1, if r.1.about.name = name then s else r.2))
        before vs := by
  induction vs generalizing before with
  | nil => rfl
  | cons v rest ih =>
    rw [foundFrom, foundFrom, List.map_append, ih, List.map_flatMap, List.flatMap_map]
    simp only [map_regrade_foundAt]

end

/-! ## Handlers that fail -/

namespace Outcome

/-- An outcome that is either a failure or reports that the rule has messages for. -/
inductive Plain (about : About) : Outcome → Prop where
  | reports {rs : List Report} {overflow : Bool}
      (h : ∀ r ∈ rs, (about.template? r.messageId).isSome = true) :
      Plain about { reports := rs, overflow }
  | missingLocation (nodeType : String) : Plain about (fail (.missingLocation nodeType))
  | unexpectedShape (detail : String) : Plain about (fail (.unexpectedShape detail))

/-- The outcome, but nothing in place of a failure. -/
def hush (o : Outcome) : Outcome := if o.fault.isSome then nothing else o

theorem plain_nothing (about : About) : Plain about nothing := .reports nofun

theorem plain_atNode {about : About} {messageId : String}
    (h : (about.template? messageId).isSome = true) (n : Node) (data : List (String × String))
    (fix : Option Fix) : Plain about (atNode n messageId data fix) := by
  unfold atNode
  split
  · exact .reports fun r hr => by rw [List.mem_singleton.1 hr]; exact h
  · exact .missingLocation _

end Outcome

section

variable {about : About} {s : Severity} {file : File} {fault : Option Fault} {o : Outcome}

theorem taken_fault {rs : List Report}
    (h : ∀ r ∈ rs, (about.template? r.messageId).isSome = true) :
    (taken about s file fault rs).2 = fault := by
  induction rs with
  | nil => rfl
  | cons r rest ih =>
    obtain ⟨template, ht⟩ := Option.isSome_iff_exists.1 (h r List.mem_cons_self)
    simp only [taken, ht]
    exact ih fun r hr => h r (List.mem_cons_of_mem _ hr)

theorem taken_hush (h : o.Plain about) :
    (taken about s file o.hush.fault o.hush.reports).1 =
      (taken about s file o.fault o.reports).1 := by
  cases h <;> rfl

end

namespace Rule

/-- A rule all of whose handlers have plain outcomes. -/
def Plain (r : Rule) : Prop :=
  ∀ file, ∀ f ∈ r.handlers file, ∀ before v, (f.2 before v).Plain r.about

/-- The rule with handlers that do nothing where its own fail. -/
def hush (r : Rule) : Rule :=
  { r with handlers := fun file => (r.handlers file).map fun f =>
      (f.1, fun before v => (f.2 before v).hush) }

theorem mem_of_mem_handlersFor {r : Rule} {file : File} {tag : String} {f : Handler}
    (h : f ∈ r.handlersFor file tag) : (tag, f) ∈ r.handlers file := by
  obtain ⟨⟨t, g⟩, hmem, htag⟩ := List.mem_filterMap.1 h
  by_cases ht : t = tag
  · obtain rfl : g = f := by simpa [ht] using htag
    rwa [← ht]
  · simp [ht] at htag

theorem handlersFor_hush (r : Rule) (file : File) (tag : String) :
    r.hush.handlersFor file tag =
      (r.handlersFor file tag).map fun f before v => (f before v).hush := by
  rw [handlersFor, handlersFor, hush, List.filterMap_map, List.map_filterMap]
  refine List.filterMap_congr fun f _ => ?_
  by_cases htag : f.1 = tag <;> simp [htag]

end Rule

theorem foundAt_hush {file : File} {before : List Visit} {v : Visit} {r : Rule × Severity}
    (h : r.1.Plain) : foundAt file before v (r.1.hush, r.2) = foundAt file before v r := by
  rw [foundAt, foundAt, Rule.handlersFor_hush, List.flatMap_map]
  exact List.flatMap_congr fun f hf =>
    taken_hush (h file _ (Rule.mem_of_mem_handlersFor hf) before v)

theorem foundFrom_hush {file : File} {before vs : List Visit} {rules : List (Rule × Severity)}
    (h : ∀ r ∈ rules, r.1.Plain) :
    foundFrom file (rules.map fun r => (r.1.hush, r.2)) before vs =
      foundFrom file rules before vs := by
  induction vs generalizing before with
  | nil => rfl
  | cons v rest ih =>
    rw [foundFrom, foundFrom, ih, List.flatMap_map]
    congr 1
    exact List.flatMap_congr fun r hr => foundAt_hush (h r hr)

/-- How a handler of a plain rule may fail. -/
def Fault.IsPlain (fault : Fault) : Prop :=
  (∃ nodeType, fault = .missingLocation nodeType) ∨ ∃ detail, fault = .unexpectedShape detail

theorem isPlain_of_taken {about : About} {s : Severity} {file : File} {o : Outcome} {fault : Fault}
    (h : o.Plain about) (hfault : (taken about s file o.fault o.reports).2 = some fault) :
    fault.IsPlain := by
  cases h with
  | reports hknown => rw [taken_fault hknown] at hfault; cases hfault
  | missingLocation nodeType => cases hfault; exact .inl ⟨nodeType, rfl⟩
  | unexpectedShape detail => cases hfault; exact .inr ⟨detail, rfl⟩

theorem isPlain_of_mem_callsAt {file : File} {before : List Visit} {v : Visit}
    {r : Rule × Severity} {c : Call} {fault : Fault} (h : r.1.Plain)
    (hc : c ∈ callsAt file before v r) (hfault : c.fault = some fault) : fault.IsPlain := by
  obtain ⟨f, hf, rfl⟩ := List.mem_map.1 hc
  exact isPlain_of_taken (h file _ (Rule.mem_of_mem_handlersFor hf) before v) hfault

/-- What the handlers do at visits is done at one of them, after those that come before it. -/
theorem mem_callsFrom_iff {file : File} {before vs : List Visit} {rules : List (Rule × Severity)}
    {c : Call} : c ∈ callsFrom file rules before vs ↔
      ∃ earlier v later, vs = earlier ++ v :: later ∧
        ∃ r ∈ rules, c ∈ callsAt file (earlier.reverse ++ before) v r := by
  induction vs generalizing before with
  | nil => exact iff_of_false nofun fun ⟨earlier, _, _, h, _⟩ => by cases earlier <;> cases h
  | cons v rest ih =>
    rw [callsFrom, List.mem_append, List.mem_flatMap, ih]
    constructor
    · rintro (⟨r, hr, hc⟩ | ⟨earlier, v', later, rfl, r, hr, hc⟩)
      · exact ⟨[], v, rest, rfl, r, hr, hc⟩
      · refine ⟨v :: earlier, v', later, rfl, r, hr, ?_⟩
        rwa [List.reverse_cons, List.append_assoc]
    · rintro ⟨_ | ⟨u, earlier⟩, v', later, heq, r, hr, hc⟩
      · obtain ⟨rfl, rfl⟩ := List.cons.inj heq
        exact .inl ⟨r, hr, hc⟩
      · obtain ⟨rfl, rfl⟩ := List.cons.inj heq
        rw [List.reverse_cons, List.append_assoc] at hc
        exact .inr ⟨earlier, v', later, rfl, r, hr, hc⟩

/-! ## Linters -/

namespace Linter

variable {l : Linter} {file : File} {document : Json} {name : String} {s : Severity}

/-- The findings in a document, in the order in which they are made. -/
def made (l : Linter) (file : File) (document : Json) : List Diagnostic :=
  if l.config.ignores file.name then []
  else
    match program? document with
    | some t => (l.walk file t).context.findings.toList
    | none => []

/-- The linter with handlers that do nothing where its own fail. -/
def hush (l : Linter) : Linter := { l with rules := l.rules.map Rule.hush }

theorem lint_eq (h : (program? document).isSome = true) :
    l.lint file document = .ok ((l.made file document).mergeSort Diagnostic.before) := by
  obtain ⟨t, ht⟩ := Option.isSome_iff_exists.1 h
  unfold lint made
  split
  · rw [List.mergeSort_nil]
  · rw [ht]
    rfl

/-- What is made of the findings of every tree is made of those of every document. -/
theorem made_eq_of_found {l' : Linter} {f : List Diagnostic → List Diagnostic}
    (hignored : l'.config.ignored = l.config.ignored) (hnil : f [] = [])
    (hfound : ∀ vs, foundFrom file l'.active [] vs = f (foundFrom file l.active [] vs)) :
    l'.made file document = f (l.made file document) := by
  have hignores : l'.config.ignores file.name = l.config.ignores file.name := by
    rw [Config.ignores, Config.ignores, hignored]
  unfold made
  rw [hignores]
  split
  · exact hnil.symm
  · split
    · rw [walk_findings, walk_findings, hfound]
    · exact hnil.symm

theorem made_withRule_off :
    (l.withRule name .off).made file document =
      (l.made file document).filter fun d => d.rule ≠ name :=
  made_eq_of_found rfl rfl fun vs => by rw [active_withRule_off, filter_foundFrom]

theorem made_withRule (hs : s ≠ .off)
    (hon : ∀ r ∈ l.rules, r.about.name = name → l.severity r ≠ .off) :
    (l.withRule name s).made file document =
      (l.made file document).map (Diagnostic.regrade name s) :=
  made_eq_of_found rfl rfl fun vs => by rw [active_withRule hs hon, map_regrade_foundFrom]

theorem activation_hush (r : Rule) :
    l.hush.activation r.hush = (l.activation r).map fun r => (r.1.hush, r.2) := by
  have hseverity : l.hush.severity r.hush = l.severity r := rfl
  rw [activation, activation, hseverity]
  split <;> rfl

theorem active_hush : l.hush.active = l.active.map fun r => (r.1.hush, r.2) := by
  rw [active_eq, active_eq, List.map_filterMap]
  refine List.filterMap_map.trans (List.filterMap_congr fun r _ => activation_hush r)

theorem made_hush (h : ∀ r ∈ l.rules, r.Plain) : l.hush.made file document = l.made file document :=
  made_eq_of_found rfl (f := id) rfl fun vs => by
    rw [active_hush]
    exact foundFrom_hush fun r hr => h _ (mem_rules_of_mem_active hr)

/-- The rules of a linter have no part in each other's findings in a document. -/
structure Independent (l : Linter) (file : File) (document : Json) (found : List Diagnostic) :
    Prop where
  /-- Without a rule there are the findings of the others, in the same order. -/
  switched : ∀ r ∈ l.rules, (l.withRule r.about.name .off).lint file document =
    .ok (found.filter fun d => d.rule ≠ r.about.name)
  /-- Another severity of a rule shows in its findings and nowhere else. -/
  regraded : ∀ r ∈ l.rules, l.severity r ≠ .off → ∀ s ≠ .off,
    (l.withRule r.about.name s).lint file document =
      .ok (found.map (Diagnostic.regrade r.about.name s))
  sorted : found.Pairwise fun a b => a.before b
  /-- The findings at one place are in the order in which they were made. -/
  stable : ∀ line column, found.filter (Diagnostic.isAt line column) =
    (l.made file document).filter (Diagnostic.isAt line column)
  /-- A handler that fails might as well have done nothing. -/
  hushed : l.hush.lint file document = .ok found
  faults : ∀ t, program? document = some t → ∀ c ∈ l.calls file t, ∀ fault,
    c.fault = some fault → fault.IsPlain

theorem independent_of_plain (hnames : (l.rules.map fun r => r.about.name).Nodup)
    (hplain : ∀ r ∈ l.rules, r.Plain) (h : (program? document).isSome = true) :
    l.Independent file document ((l.made file document).mergeSort Diagnostic.before) where
  switched r _ := by
    rw [lint_eq h, made_withRule_off, Diagnostic.mergeSort_filter]
  regraded r hr hon s hs := by
    -- No other rule has the name of `r`, so none is switched on along with it.
    have hsame : ∀ r' ∈ l.rules, r'.about.name = r.about.name → l.severity r' ≠ .off := by
      intro r' hr' hname
      rwa [List.inj_on_of_nodup_map hnames hr' hr hname]
    rw [lint_eq h, made_withRule hs hsame]
    congr 1
    exact (List.map_mergeSort fun a _ b _ => (Diagnostic.before_regrade _ s a b).symm).symm
  sorted := Diagnostic.pairwise_mergeSort _
  stable line column := Diagnostic.filter_isAt_mergeSort line column _
  hushed := by rw [lint_eq h, made_hush hplain]
  faults t _ c hc fault hfault := by
    rw [calls, walk_calls] at hc
    obtain ⟨_, _, _, -, r, hr, hc⟩ := mem_callsFrom_iff.1 hc
    exact isPlain_of_mem_callsAt (hplain _ (mem_rules_of_mem_active hr)) hc hfault

end Linter

end Steward.Lint
