import Steward.Annotation.Line
import Steward.Ci.Config.Reader
import Steward.Ci.Executors
import Steward.Ci.Operation
import Steward.Cli.Invocation
import Steward.Lint.Builtin
import Steward.Tool.Runner

/-!
# Carrying out invocations

What the program finds around it, and what it prints and changes there.
-/

namespace Steward.Cli

open Ci (Config Fault)
open Shell (Machine Place)

/-- Whether the findings of a command let a job go on. -/
inductive Verdict where
  | passed
  | failed
deriving DecidableEq, Repr

namespace Verdict

/-- The written name. -/
def name : Verdict → String
  | passed => "Passed"
  | failed => "Failed"

/-- The code that the program ends with. -/
def code : Verdict → Nat
  | passed => 0
  | failed => 1

instance : Json.Encode Verdict := ⟨fun v => .text v.name⟩

end Verdict

/-- What the program finds around it. -/
structure Session where
  machine : Machine
  /-- The folder that paths are seen from. -/
  folder : Place
  env : List (String × String) := []
  input : ByteArray := .empty

/-- What the program leaves behind. -/
structure Session.Report where
  verdict : Except Fault Verdict
  printed : String
  machine : Machine

namespace Session

/-- The text of a file. -/
def text? (s : Session) (path : String) : Option String :=
  (s.machine.disk.content? (.of s.folder path)).bind String.fromUTF8?

/-- The text of a file that has to be there. -/
def text (s : Session) (path : String) : Except Fault String :=
  match s.text? path with
  | some t => .ok t
  | none => .error .io

/-! ## The configuration -/

/-- The file that holds the configuration where none is named. -/
def defaultConfig : String := "scout-ci.toml"

/-- Whether there is a file. -/
def isFile (s : Session) (path : String) : Bool :=
  (s.machine.disk.content? (.of s.folder path)).isSome

/-- The format and the text of the configuration in a file, whose name may lack the ending. -/
def configText? (s : Session) (path : String) : Option (Toml.Format × String) :=
  if s.isFile path then do return (← Toml.Format.ofName? path, ← s.text? path)
  else Toml.Format.all.findSome? fun f => (s.text? (path ++ f.ending)).map (f, ·)

/-- The configuration: a file that is named has to be there. -/
def config (s : Session) (path : Option String) : Except Fault Config :=
  let text := match path with
    | some path => s.configText? path
    | none => some ((s.configText? defaultConfig).getD (.toml, ""))
  match text with
  | some (format, text) => (Config.ofText format text s.env).mapError .config
  | none => .error (.config .unreadable)

/-! ## Commands -/

/-- A report on something that ended without printing. -/
def fault (s : Session) (e : Fault) : Report := ⟨.error e, "", s.machine⟩

/-- Runs an operation; its result is printed. -/
def run (s : Session) (c : Config) (operation : String) (o : Ci.Order) (isDry : Bool) : Report :=
  let job := ExceptT.run (Ci.perform c o operation)
  let (result, machine) : Except Fault Ci.Result × Machine :=
    if isDry then ((job.run Ci.Executor.dry ()).result, s.machine)
    else
      let r := job.run (Ci.Executor.processes (.seconds c.stepTimeoutSecs) s.folder) s.machine
      (r.result, r.state)
  match result with
  | .ok r => ⟨.ok .passed, r.text ++ "\n", machine⟩
  | .error e => ⟨.error e, "", machine⟩

/-- The column in which descriptions begin. -/
def nameWidth : Nat := 26

/-- The line of an operation in the list of them. -/
def operationLine (op : Ci.Operation) : String :=
  op.name ++ String.ofList (List.replicate (nameWidth - op.name.length) ' ') ++ op.description ++
    "\n"

/-- Prints annotations; errors among them fail the job. -/
def annotations (l : List Annotation) (m : Machine) : Report :=
  let summary := Annotation.Summary.of l
  let verdict := if summary.hasErrors then Verdict.failed else .passed
  ⟨.ok verdict, Annotation.render l, m⟩

/-- Turns what is to be read into annotations. -/
def annotate (s : Session) (format : Output.Format) (root : Option String) : Report :=
  match String.fromUTF8? s.input with
  | none => s.fault .io
  | some input =>
    match format.read? root input with
    | none => s.fault .output
    | some l => annotations l s.machine

/-- The linter for a file, in a project if one is given. -/
def linter (s : Session) (c : Config) (project : Option String) :
    Except Fault Lint.Linter × Machine :=
  match c.lint.toConfig, project with
  | .error e, _ => (.error (.lintConfig e), s.machine)
  | .ok config, none => (.ok (.ofFile config), s.machine)
  | .ok config, some root =>
    match (Tool.Runner.ofSettings c.tools).knipReport s.folder root s.machine with
    | (.error e, _, m) => (.error (.tool e), m)
    | (.ok knip, runner, m) =>
      match runner.jscpdReport s.folder root m with
      | (.error e, _, m) => (.error (.tool e), m)
      | (.ok jscpd, _, m) => (.ok (.ofProject config root knip jscpd), m)

/-- The machine with the fixes of findings written to a file, if any are applied. -/
def withFixes (s : Session) (m : Machine) (path text : String) (found : List Lint.Diagnostic) :
    Machine :=
  let outcome := Lint.Diagnostic.fixAll text found
  if outcome.applied = 0 then m
  else { m with disk := m.disk.put (.of s.folder path) (.file outcome.output.toUTF8) }

/-- Lints a file. -/
def lint (s : Session) (c : Config) (tree source : String) (name project : Option String)
    (fixes : Bool) : Report :=
  match s.text tree, s.text source with
  | .error e, _ | _, .error e => s.fault e
  | .ok tree, .ok text =>
    match s.linter c project with
    | (.error e, m) => ⟨.error e, "", m⟩
    | (.ok linter, m) =>
      match linter.lintText ⟨name.getD source, text⟩ (Json.readWhole? tree) with
      | .error e => ⟨.error (.lint e), "", m⟩
      | .ok found =>
        let m := if fixes then s.withFixes m source text found else m
        annotations (found.map Lint.Diagnostic.toAnnotation) m

/-- The token that a variable holds; an empty one is none. -/
def token? (s : Session) (variableName : String) : Option Secret :=
  ((s.env.lookup variableName).filter (!·.isEmpty)).map Secret.mk

/-- Carries out an action. -/
def perform (s : Session) (c : Config) : Action → Report
  | .run operation order tokenVariable isDry =>
    s.run c operation { order with token := s.token? tokenVariable } isDry
  | .list => ⟨.ok .passed, String.join (Ci.Operation.all.map operationLine), s.machine⟩
  | .annotate format root => s.annotate format root
  | .lint tree source name project fixes => s.lint c tree source name project fixes

/-- Carries out an invocation; nothing is done without a configuration that can be used. -/
def execute (s : Session) (i : Invocation) : Report :=
  match s.config i.config with
  | .ok c => s.perform c i.action
  | .error e => s.fault e

end Session

end Steward.Cli
