import Steward.Lint.Linter

/-!
# What a walk does

All rules work on one context, but no handler sees what the others did with it: a walk dispatches
the visits of the tree in order, each with the nodes above it, and adds what each rule's handlers
find by themselves.

* `Tree.visits`: the visits of a tree.
* `Walk.after`: the walk over some visits, the handlers of each visit apart from those of others.
* `Walk.through_eq`: going through a tree is the walk over its visits.
* `Linter.walk_visits`, `Linter.walk_findings`, `Linter.walk_calls`, `Linter.walk_ancestors`.
-/

namespace Steward.Lint

/-! ## The visits of a tree -/

namespace Visit

/-- The visit of a node before its children. -/
def enter (n : Node) (ancestors : List Node) : Visit := ⟨n.type, n, ancestors⟩

/-- The visit of a node after its children. -/
def exit (n : Node) (ancestors : List Node) : Visit := ⟨n.type ++ ":exit", n, ancestors⟩

end Visit

namespace Tree

mutual

/-- The visits of a tree below some ancestors. -/
def visits (ancestors : List Node) : Tree → List Visit
  | mk n ts => .enter n ancestors :: (visitsOf (n :: ancestors) ts ++ [.exit n ancestors])

/-- The visits of trees below some ancestors, one tree after the other. -/
def visitsOf (ancestors : List Node) : List Tree → List Visit
  | [] => []
  | t :: rest => visits ancestors t ++ visitsOf ancestors rest

end

end Tree

/-! ## One rule at one visit -/

/-- The findings of the reports up to the first that the rule has no message for, and the failure
that this one is, or else the given failure. -/
def taken (about : About) (severity : Severity) (file : File) (fault : Option Fault) :
    List Report → List Diagnostic × Option Fault
  | [] => ([], fault)
  | r :: rest =>
    match about.template? r.messageId with
    | none => ([], some (.unknownMessage about.name r.messageId))
    | some template =>
      (r.toDiagnostic about severity file template :: (taken about severity file fault rest).1,
        (taken about severity file fault rest).2)

namespace Context

variable {c : Context} {about : About} {severity : Severity} {r : Report}

/-- The context with findings more. -/
def add (c : Context) (found : List Diagnostic) : Context :=
  { c with findings := c.findings ++ found.toArray }

@[simp] theorem add_nil : c.add [] = c := by simp [add]

@[simp] theorem add_add (found found' : List Diagnostic) :
    (c.add found).add found' = c.add (found ++ found') := by
  simp [add]

theorem report_of_template {template : String} (h : c.active = some (about, severity))
    (ht : about.template? r.messageId = some template) :
    c.report r = .ok (c.add [r.toDiagnostic about severity c.file template]) := by
  simp [report, h, ht, add]

theorem report_of_no_template (h : c.active = some (about, severity))
    (ht : about.template? r.messageId = none) :
    c.report r = .error (.unknownMessage about.name r.messageId) := by
  simp [report, h, ht]

theorem reportAll_of_active {fault : Option Fault} {rs : List Report}
    (h : c.active = some (about, severity)) :
    c.reportAll fault rs =
      (c.add (taken about severity c.file fault rs).1,
        (taken about severity c.file fault rs).2) := by
  induction rs generalizing c with
  | nil => simp [reportAll, taken]
  | cons r rest ih =>
    cases ht : about.template? r.messageId with
    | none => simp [reportAll, report_of_no_template h ht, taken, ht]
    | some template =>
      have hrest := ih (c := c.add [r.toDiagnostic about severity c.file template]) h
      simp only [reportAll, report_of_template h ht, hrest, add_add]
      simp [taken, ht, add]

end Context

/-- What a handler of a rule does at a visit, given the visits before. -/
def takenBy (file : File) (before : List Visit) (v : Visit) (r : Rule × Severity) (h : Handler) :
    List Diagnostic × Option Fault :=
  taken r.1.about r.2 file (h before v).fault (h before v).reports

/-- What a rule finds at a visit. -/
def foundAt (file : File) (before : List Visit) (v : Visit) (r : Rule × Severity) :
    List Diagnostic :=
  (r.1.handlersFor file v.tag).flatMap fun h => (takenBy file before v r h).1

/-- What the handlers of a rule do at a visit. -/
def callsAt (file : File) (before : List Visit) (v : Visit) (r : Rule × Severity) : List Call :=
  (r.1.handlersFor file v.tag).map fun h =>
    ⟨r.1.about, v, (takenBy file before v r h).2, (h before v).overflow⟩

/-- What the rules find at visits, given the visits before, last one first. -/
def foundFrom (file : File) (rules : List (Rule × Severity)) :
    (before : List Visit) → List Visit → List Diagnostic
  | _, [] => []
  | before, v :: rest =>
    rules.flatMap (foundAt file before v) ++ foundFrom file rules (v :: before) rest

/-- What the handlers of the rules do at visits. -/
def callsFrom (file : File) (rules : List (Rule × Severity)) :
    (before : List Visit) → List Visit → List Call
  | _, [] => []
  | before, v :: rest =>
    rules.flatMap (callsAt file before v) ++ callsFrom file rules (v :: before) rest

/-! ## Steps of a walk -/

namespace Walk

variable {rules : List (Rule × Severity)} {v : Visit} {w : Walk}

/-- The walk with findings and calls more. -/
def add (w : Walk) (found : List Diagnostic) (calls : List Call) : Walk :=
  { w with context := w.context.add found, calls := w.calls ++ calls.toArray }

/-- The walk below other nodes. -/
def under (w : Walk) (ancestors : List Node) : Walk :=
  { w with context := { w.context with ancestors } }

@[simp] theorem add_nil : w.add [] [] = w := by simp [add]

@[simp] theorem add_add (found found' : List Diagnostic) (calls calls' : List Call) :
    (w.add found calls).add found' calls' = w.add (found ++ found') (calls ++ calls') := by
  simp [add]

theorem add_active (found : List Diagnostic) (calls : List Call) :
    (w.add found calls).context.active = w.context.active := rfl

theorem handle_eq {r : Rule × Severity} (h : w.context.active = some (r.1.about, r.2))
    (f : Handler) :
    handle r.1.about v w f =
      w.add (takenBy w.context.file w.visits v r f).1
        [⟨r.1.about, v, (takenBy w.context.file w.visits v r f).2, (f w.visits v).overflow⟩] := by
  simp only [handle, Context.reportAll_of_active h]
  simp [add, takenBy]

theorem foldl_handle_eq {r : Rule × Severity} (h : w.context.active = some (r.1.about, r.2))
    (fs : List Handler) :
    fs.foldl (handle r.1.about v) w =
      w.add (fs.flatMap fun f => (takenBy w.context.file w.visits v r f).1)
        (fs.map fun f =>
          ⟨r.1.about, v, (takenBy w.context.file w.visits v r f).2, (f w.visits v).overflow⟩) := by
  induction fs generalizing w with
  | nil => simp
  | cons f rest ih =>
    rw [List.foldl_cons, handle_eq h, ih ((add_active _ _).trans h), add_add]
    rfl

theorem handleBy_eq (h : w.context.active = none) (r : Rule × Severity) :
    handleBy v w r =
      w.add (foundAt w.context.file w.visits v r) (callsAt w.context.file w.visits v r) := by
  cases hfs : r.1.handlersFor w.context.file v.tag with
  | nil => simp [handleBy, foundAt, callsAt, hfs]
  | cons f rest =>
    simp only [handleBy, foundAt, callsAt, hfs]
    rw [foldl_handle_eq rfl]
    -- The rule is inactive again, as it was before.
    rw [add, add, Context.deactivate, Context.add, Context.add, ← h]
    rfl

theorem foldl_handleBy_eq (h : w.context.active = none) :
    rules.foldl (handleBy v) w =
      w.add (rules.flatMap (foundAt w.context.file w.visits v))
        (rules.flatMap (callsAt w.context.file w.visits v)) := by
  induction rules generalizing w with
  | nil => simp
  | cons r rest ih =>
    rw [List.foldl_cons, handleBy_eq h, ih ((add_active _ _).trans h), add_add]
    rfl

/-- The walk one visit on. -/
def visit (rules : List (Rule × Severity)) (w : Walk) (v : Visit) : Walk :=
  let w' := w.add (rules.flatMap (foundAt w.context.file w.visits v))
    (rules.flatMap (callsAt w.context.file w.visits v))
  { w' with visits := v :: w.visits }

/-- The walk some visits on. -/
def after (rules : List (Rule × Severity)) (w : Walk) (vs : List Visit) : Walk :=
  vs.foldl (visit rules) w

theorem dispatch_eq (h : w.context.active = none) (tag : String) (n : Node) :
    w.dispatch rules tag n = w.visit rules ⟨tag, n, w.context.ancestors⟩ := by
  simp only [dispatch, foldl_handleBy_eq h]
  rfl

theorem after_append (vs vs' : List Visit) :
    w.after rules (vs ++ vs') = (w.after rules vs).after rules vs' :=
  List.foldl_append

/-- What the handlers do depends on what they are shown, not on where the walk stands. -/
theorem after_under (vs : List Visit) (ancestors : List Node) :
    (w.under ancestors).after rules vs = (w.after rules vs).under ancestors := by
  induction vs generalizing w with
  | nil => rfl
  | cons v rest ih => exact ih (w := w.visit rules v)

theorem after_context (vs : List Visit) :
    (w.after rules vs).context =
      w.context.add (foundFrom w.context.file rules w.visits vs) := by
  induction vs generalizing w with
  | nil => simp [after, foundFrom]
  | cons v rest ih =>
    show ((w.visit rules v).after rules rest).context = _
    rw [ih, foundFrom, ← Context.add_add]
    rfl

theorem after_calls (vs : List Visit) :
    (w.after rules vs).calls =
      w.calls ++ (callsFrom w.context.file rules w.visits vs).toArray := by
  induction vs generalizing w with
  | nil => simp [after, callsFrom]
  | cons v rest ih =>
    show ((w.visit rules v).after rules rest).calls = _
    rw [ih, callsFrom]
    simp [visit, add, Context.add]

theorem after_visits (vs : List Visit) : (w.after rules vs).visits = vs.reverse ++ w.visits := by
  induction vs generalizing w with
  | nil => rfl
  | cons v rest ih =>
    show ((w.visit rules v).after rules rest).visits = _
    rw [ih, List.reverse_cons, List.append_assoc]
    rfl

theorem after_active (vs : List Visit) :
    (w.after rules vs).context.active = w.context.active := by
  rw [after_context]
  rfl

theorem after_ancestors (vs : List Visit) :
    (w.after rules vs).context.ancestors = w.context.ancestors := by
  rw [after_context]
  rfl

theorem under_of_ancestors_eq {ancestors : List Node} (h : w.context.ancestors = ancestors) :
    w.under ancestors = w := by
  rw [← h]
  rfl

theorem leave_under (n : Node) (ancestors : List Node) :
    (w.under (n :: ancestors)).leave = w.under ancestors := rfl

mutual

/-- Going through a tree dispatches its visits, and ends below the nodes where it began. -/
theorem through_eq : ∀ (t : Tree) {w : Walk}, w.context.active = none →
    through rules t w = w.after rules (t.visits w.context.ancestors)
  | .mk n ts, w, h => by
    let w' := w.visit rules (.enter n w.context.ancestors)
    have hancestors : w'.context.ancestors = w.context.ancestors := rfl
    have hactive : w'.context.active = none := h
    -- Below `n` the walk goes on as before, but that it shows `n` among the nodes above.
    have hbelow : throughAll rules ts (w'.enter n) =
        (w'.after rules (Tree.visitsOf (n :: w.context.ancestors) ts)).under
          (n :: w.context.ancestors) := by
      have hin : (w'.enter n).context.active = none := hactive
      rw [throughAll_eq ts hin]
      exact after_under _ _
    rw [through, dispatch_eq h]
    change dispatch rules _ n (throughAll rules ts (w'.enter n)).leave = _
    rw [hbelow, leave_under, under_of_ancestors_eq ((after_ancestors _).trans hancestors),
      dispatch_eq ((after_active _).trans hactive), after_ancestors, hancestors]
    change (w'.after rules _).after rules [.exit n w.context.ancestors] = _
    rw [← after_append]
    rfl

theorem throughAll_eq : ∀ (ts : List Tree) {w : Walk}, w.context.active = none →
    throughAll rules ts w = w.after rules (Tree.visitsOf w.context.ancestors ts)
  | [], w, _ => rfl
  | t :: rest, w, h => by
    have hrest := throughAll_eq rest (w := w.after rules (t.visits w.context.ancestors))
      ((after_active _).trans h)
    rw [throughAll, through_eq t h, hrest, after_ancestors, ← after_append, Tree.visitsOf]

end

end Walk

/-! ## The walk of a linter -/

namespace Linter

variable (l : Linter) (file : File) (t : Tree)

theorem walk_eq : l.walk file t = Walk.after l.active { context := { file } } (t.visits []) :=
  Walk.through_eq t rfl

theorem walk_visits : (l.walk file t).visits = (t.visits []).reverse := by
  rw [walk_eq, Walk.after_visits, List.append_nil]

theorem walk_findings :
    (l.walk file t).context.findings.toList = foundFrom file l.active [] (t.visits []) := by
  rw [walk_eq, Walk.after_context]
  simp [Context.add]

theorem walk_calls : (l.walk file t).calls.toList = callsFrom file l.active [] (t.visits []) := by
  rw [walk_eq, Walk.after_calls]
  simp

theorem walk_ancestors : (l.walk file t).context.ancestors = [] := by
  rw [walk_eq, Walk.after_ancestors]

end Linter

end Steward.Lint
