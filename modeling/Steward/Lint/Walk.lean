import Steward.Lint.Rule

/-!
# Walks

A tree is gone through once for all rules. Each node is dispatched before and after its children, to
the handlers that the rules have for it, rule by rule. They share a context: the nodes above the one
at hand, the rule whose handlers run, and the findings so far.

* `Context.report`: a report is a finding of the rule whose handlers run.
* `Walk.dispatch`: the handlers of one visit.
* `Walk.through`: the dispatches of a tree.
-/

namespace Steward.Lint

/-! ## Contexts -/

/-- The finding of a report. -/
def Report.toDiagnostic (r : Report) (about : About) (severity : Severity) (file : File)
    (template : String) : Diagnostic :=
  { rule := about.name, messageId := r.messageId, message := interpolate template r.data, severity
    file := file.name, line := r.span.line, column := r.span.column, endLine := r.span.endLine
    endColumn := r.span.endColumn, fix := r.fix }

/-- What all rules share while a file is linted. -/
structure Context where
  file : File
  /-- The nodes that were entered and not left, nearest first. -/
  ancestors : List Node := []
  /-- The rule whose handlers run, and its severity. -/
  active : Option (About × Severity) := none
  findings : Array Diagnostic := #[]

namespace Context

/-- Goes down into a node. -/
def enter (c : Context) (n : Node) : Context := { c with ancestors := n :: c.ancestors }

/-- Comes up out of the last node. -/
def leave (c : Context) : Context := { c with ancestors := c.ancestors.tail }

/-- Has the handlers of a rule run. -/
def activate (c : Context) (about : About) (severity : Severity) : Context :=
  { c with active := some (about, severity) }

/-- Has no handlers run. -/
def deactivate (c : Context) : Context := { c with active := none }

/-- Takes a report of the rule whose handlers run. -/
def report (c : Context) (r : Report) : Except Fault Context :=
  match c.active with
  | none => .error .noActiveRule
  | some (about, severity) =>
    match about.template? r.messageId with
    | none => .error (.unknownMessage about.name r.messageId)
    | some template =>
      .ok { c with findings := c.findings.push (r.toDiagnostic about severity c.file template) }

/-- Takes reports up to the first that is refused; the failure is that refusal, or else the given
one. -/
def reportAll (fault : Option Fault) : List Report → Context → Context × Option Fault
  | [], c => (c, fault)
  | r :: rest, c =>
    match c.report r with
    | .error refusal => (c, some refusal)
    | .ok c => reportAll fault rest c

end Context

/-! ## Walks -/

/-- What a handler of a rule did at a visit. -/
structure Call where
  rule : About
  visit : Visit
  /-- Why the handler failed, if it did. -/
  fault : Option Fault
  /-- Whether an addition of the handler overflowed. -/
  overflow : Bool

/-- How far a tree has been gone through. -/
structure Walk where
  context : Context
  /-- The visits that were dispatched, last one first. -/
  visits : List Visit := []
  calls : Array Call := #[]

/-- The handlers of a rule for a tag. -/
def Rule.handlersFor (r : Rule) (file : File) (tag : String) : List Handler :=
  (r.handlers file).filterMap fun (t, h) => if t = tag then some h else none

namespace Walk

/-- Runs a handler of a rule at a visit. -/
def handle (about : About) (v : Visit) (w : Walk) (h : Handler) : Walk :=
  let o := h w.visits v
  let (context, fault) := w.context.reportAll o.fault o.reports
  { w with context, calls := w.calls.push ⟨about, v, fault, o.overflow⟩ }

/-- Runs the handlers that a rule has for a visit. -/
def handleBy (v : Visit) (w : Walk) : Rule × Severity → Walk
  | (r, severity) =>
    match r.handlersFor w.context.file v.tag with
    | [] => w
    | handlers =>
      let w := { w with context := w.context.activate r.about severity }
      let w := handlers.foldl (handle r.about v) w
      { w with context := w.context.deactivate }

/-- Runs the handlers that the rules have for a tag at a node. -/
def dispatch (rules : List (Rule × Severity)) (tag : String) (n : Node) (w : Walk) : Walk :=
  let v : Visit := ⟨tag, n, w.context.ancestors⟩
  let w := rules.foldl (handleBy v) w
  { w with visits := v :: w.visits }

/-- Goes down into a node. -/
def enter (w : Walk) (n : Node) : Walk := { w with context := w.context.enter n }

/-- Comes up out of the last node. -/
def leave (w : Walk) : Walk := { w with context := w.context.leave }

mutual

/-- Goes through a tree: to its root, to all below it, and to its root again. -/
def through (rules : List (Rule × Severity)) : Tree → Walk → Walk
  | .mk n ts, w =>
    let w := throughAll rules ts ((w.dispatch rules n.type n).enter n)
    w.leave.dispatch rules (n.type ++ ":exit") n

/-- Goes through trees, one after the other. -/
def throughAll (rules : List (Rule × Severity)) : List Tree → Walk → Walk
  | [], w => w
  | t :: rest, w => throughAll rules rest (through rules t w)

end

end Walk

end Steward.Lint
