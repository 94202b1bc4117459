import Steward.Lint.Diagnostic
import Steward.Lint.Node
import Steward.Text.Search

/-!
# Lint rules

A rule says what it is about and which visits it handles. A handler sees a visit and all visits
before it, and gives reports; it may also fail, which costs no more than the reports that it had
still to make.

* `Outcome.atNode`: a report about a node covers it, its columns counted from 1.
* `withState`: what handlers keep of a file is what they have made of the visits before.
* `interpolate`: the message of a report is the rule's template with the values put in.
-/

namespace Steward.Lint

/-- The file that is linted. -/
structure File where
  name : String
  source : String
deriving DecidableEq, Repr

/-- Whether a file is a test, by its name. -/
def File.isTest (f : File) : Bool :=
  let name := f.name.toList.map fun c => if c = '\\' then '/' else c
  [".test.", ".spec.", "/__tests__/"].any fun part => Text.contains part.toList name

/-- What a rule looks for. -/
inductive Kind where
  | problem
  | suggestion
  | layout
deriving DecidableEq, Repr

/-- How grave the findings of a kind are unless the configuration says otherwise. -/
def Kind.severity : Kind → Severity
  | problem => .error
  | suggestion | layout => .warn

/-- The name of a kind. -/
def Kind.name : Kind → String
  | problem => "Problem"
  | suggestion => "Suggestion"
  | layout => "Layout"

/-- What a rule is about. -/
structure About where
  name : String
  kind : Kind
  description : String
  /-- The templates of its messages, by identifier. -/
  messages : List (String × String)
  fixable : Bool := false
deriving DecidableEq, Repr

instance : Json.Encode About :=
  ⟨fun a => .object [Json.field "name" a.name, Json.field "kind" a.kind.name,
    Json.field "description" a.description, Json.field "messages" a.messages,
    Json.field "fixable" a.fixable, Json.field "default_severity" a.kind.severity.name]⟩

/-- The template of a message. -/
def About.template? (a : About) (messageId : String) : Option String := a.messages.lookup messageId

/-- The part of a file that a report is about, lines and columns counted from 1. -/
structure Span where
  line : UInt32
  column : UInt32
  endLine : Option UInt32 := none
  endColumn : Option UInt32 := none
deriving DecidableEq, Repr

/-- A report of a handler. -/
structure Report where
  messageId : String
  span : Span
  /-- The values to be put into the template. -/
  data : List (String × String) := []
  fix : Option Fix := none
deriving DecidableEq, Repr

/-- Why a handler failed. -/
inductive Fault where
  | unknownMessage (rule messageId : String)
  | missingLocation (nodeType : String)
  | noActiveRule
  | unexpectedShape (detail : String)
deriving DecidableEq, Repr

/-- The text of a failure. -/
def Fault.message : Fault → String
  | unknownMessage rule messageId => "Rule " ++ rule ++ " has no message " ++ messageId
  | missingLocation nodeType => nodeType ++ " node has no location"
  | noActiveRule => "Report outside of a rule handler"
  | unexpectedShape detail => "Unexpected AST shape: " ++ detail

/-- What a handler gives: reports, and why it then failed, if it did. Where an addition on the way
to a report overflows, checks for overflow panic, and nothing comes of the walk; without them the
report is made all the same, with what the addition wraps to. -/
structure Outcome where
  reports : List Report := []
  fault : Option Fault := none
  overflow : Bool := false
deriving DecidableEq, Repr

namespace Outcome

/-- No reports. -/
def nothing : Outcome := {}

/-- A failure. -/
def fail (f : Fault) : Outcome := { fault := some f }

end Outcome

/-- The span of a location, unless counting its columns from 1 overflows. -/
def Span.ofLocation? (l : Location) : Option Span := do
  let column ← Word.add? l.start.column 1
  let endColumn ← Word.add? l.finish.column 1
  return {
    line := l.start.line, column, endLine := some l.finish.line, endColumn := some endColumn }

/-- The span of a location, its columns wrapped where counting them from 1 overflows. -/
def Span.ofLocation (l : Location) : Span :=
  { line := l.start.line, column := l.start.column + 1, endLine := some l.finish.line
    endColumn := some (l.finish.column + 1) }

/-- One report that covers a node; a node without location cannot be reported. -/
def Outcome.atNode (n : Node) (messageId : String) (data : List (String × String) := [])
    (fix : Option Fix := none) : Outcome :=
  match n.location? with
  | some l =>
    { reports := [{ messageId, span := .ofLocation l, data, fix }]
      overflow := (Span.ofLocation? l).isNone }
  | none => .fail (.missingLocation n.type)

/-- A template with the values put in for their names in double braces, one name after the other. -/
def interpolate (template : String) (data : List (String × String)) : String :=
  String.ofList (data.foldl (fun text (name, value) =>
    Text.replaceAll ("\x7b\x7b".toList ++ name.toList ++ "\x7d\x7d".toList) value.toList text)
    template.toList)

/-- What a rule does at a visit, given the visits before it, last one first. -/
abbrev Handler := (before : List Visit) → Visit → Outcome

/-- What a rule does at a visit that keeps a state while a file is walked. -/
abbrev StateHandler (σ : Type) := σ → Visit → Outcome × σ

/-- The state that handlers, one for each tag, have made of a first one in some visits, last one
first. -/
def stateAfter {σ : Type} (handlers : List (String × StateHandler σ)) (first : σ) :
    (before : List Visit) → σ
  | [] => first
  | v :: before =>
    let s := stateAfter handlers first before
    match handlers.lookup v.tag with
    | some h => (h s v).2
    | none => s

/-- Handlers that share a state, each with the tag of the visits that it handles, as handlers that
are given the visits before. -/
def withState {σ : Type} (first : σ) (handlers : List (String × StateHandler σ)) :
    List (String × Handler) :=
  handlers.map fun (tag, h) => (tag, fun before v => (h (stateAfter handlers first before) v).1)

/-- A lint rule. -/
structure Rule where
  about : About
  /-- The handlers of a file, each with the tag of the visits that it handles. -/
  handlers : File → List (String × Handler)

end Steward.Lint
