import Steward.Json.Reader
import Steward.Settings.Basic
import Steward.Shell.Program
import Steward.Text.Blank
import Steward.Text.Lines
import Steward.Tool.Cache
import Steward.Tool.Fault
import Steward.Tool.Report

/-!
# Running the analysis tools

The tools run on a project, and their reports are kept for a while. Both tools fail when they find
something, so a report that can be read counts whatever the tool's end was.
-/

namespace Steward.Tool

open Shell (Machine Place Program)
open Time (Span)

/-- How the tools are run, and how long their reports are kept. -/
structure Runner where
  knipCommand : String
  jscpdCommand : String
  limit : Span
  knip : Cache Knip
  jscpd : Cache Jscpd

/-- What a tool left behind when it had ended. -/
structure Output where
  exit : Exit
  out : ByteArray
  err : ByteArray

/-- The fault of a tool that ended otherwise than with success. -/
def Output.failure (o : Output) (tool : String) : Fault :=
  .failed tool o.exit (Text.lastLines Fault.complaintLines (Text.decodeBytes o.err))

/-- The report in bytes, where they hold one. -/
def report? {α : Type} (d : Json.Decoder α) (bytes : ByteArray) : Option α := do
  let text ← String.fromUTF8? bytes
  let document ← (Json.read text).toOption
  (d document).toOption

/-- The outcome of a tool that ended, given its report where that can be read. -/
def judge {α : Type} (tool : String) (o : Output) : Option α → Except Fault α
  | some report => .ok report
  | none => .error (if o.exit.passed then .unreadable tool else o.failure tool)

namespace Runner

/-- A runner that has no reports yet. -/
def ofSettings (s : ToolSettings) : Runner where
  knipCommand := s.knipCommand
  jscpdCommand := s.jscpdCommand
  limit := .seconds s.timeoutSecs
  knip := .empty (.seconds s.keepSecs)
  jscpd := .empty (.seconds s.keepSecs)

/-- Runs a tool in the root of a project: the words of its command, and more arguments. -/
def run (limit : Span) (tool command : String) (args : List String) (home : Place) (root : String)
    (m : Machine) : Except Fault Output × Machine :=
  match (Text.words Text.isBlank command.toList).map String.ofList with
  | [] => (.error (.noCommand tool), m)
  | name :: words =>
    match m.start home { name, args := words ++ args, folder := root, limit } with
    | (.notStarted, m) => (.error (.notStarted tool), m)
    | (.overdue, m) => (.error (.timeout tool limit), m)
    | (.done exit out err, m) => (.ok ⟨exit, out, err⟩, m)

/-- Runs knip, whose report is what it prints. -/
def runKnip (r : Runner) (home : Place) (root : String) (m : Machine) :
    Except Fault Knip × Machine :=
  let (output, m) := run r.limit "knip" r.knipCommand ["--reporter", "json"] home root m
  (output.bind fun o => judge "knip" o (report? Knip.decode o.out), m)

/-- The folder that jscpd is told to leave its report in. -/
def reportFolder : Place := ["tmp", "jscpd-report"]

/-- The report that jscpd has left in a folder; with nothing to scan it leaves none. -/
def leftReport (m : Machine) (o : Output) : Except Fault Jscpd :=
  match m.disk.find? (reportFolder ++ ["jscpd-report.json"]) with
  | some (.file content) => judge "jscpd" o (report? Jscpd.decode content)
  | some .folder => .error (if o.exit.passed then .unreachable else o.failure "jscpd")
  | none => if o.exit.passed then .ok {} else .error (o.failure "jscpd")

/-- Runs jscpd, whose report is a file in a folder that is removed afterwards. -/
def runJscpd (r : Runner) (home : Place) (root : String) (m : Machine) :
    Except Fault Jscpd × Machine :=
  let args := ["--reporters", "json", "--output", reportFolder.path, "--silent", "."]
  let (output, m) := run r.limit "jscpd" r.jscpdCommand args home root m
  (output.bind (leftReport m), { m with disk := m.disk.remove reportFolder })

/-- A report from the cache, or else a new one, which the cache then keeps. -/
def fetched {α : Type} (c : Cache α) (root : String) (m : Machine)
    (run : Machine → Except Fault α × Machine) : Except Fault α × Cache α × Machine :=
  match c.get? m.clock root none with
  | some report => (.ok report, c, m)
  | none =>
    let (outcome, after) := run m
    (outcome, c.settle after.clock root outcome, after)

/-- The report of knip on a project. -/
def knipReport (r : Runner) (home : Place) (root : String) (m : Machine) :
    Except Fault Knip × Runner × Machine :=
  let (report, knip, m) := fetched r.knip root m (r.runKnip home root)
  (report, { r with knip }, m)

/-- The report of jscpd on a project. -/
def jscpdReport (r : Runner) (home : Place) (root : String) (m : Machine) :
    Except Fault Jscpd × Runner × Machine :=
  let (report, jscpd, m) := fetched r.jscpd root m (r.runJscpd home root)
  (report, { r with jscpd }, m)

/-- Forgets the reports on a project. -/
def invalidate (r : Runner) (root : String) : Runner :=
  { r with knip := r.knip.invalidate root, jscpd := r.jscpd.invalidate root }

end Runner

end Steward.Tool
