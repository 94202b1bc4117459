import Steward.Ci.Job
import Steward.Shell.Program
import Steward.Text.Search

/-!
# Executors

Steps run as programs on a machine: what a program printed is read as text, and what it was given to
read in secret is blotted out. Or they are not run, and cues say how those with a given word in
their name or on their command line end; a step without a cue succeeds and leaves no output.
-/

namespace Steward.Ci

open Shell (Machine Place Program)

/-! ## Running steps -/

/-- The program of a step. -/
def Step.toProgram (s : Step) (limit : Time.Span) : Program where
  name := s.program
  args := s.args
  folder := s.directory
  env := s.env
  input := ((s.input.map (·.value)).getD "").toUTF8
  limit

/-- What a program printed, without the secret that it was given. -/
def Step.shown (s : Step) (bytes : ByteArray) : String :=
  let text := Text.decodeBytes bytes
  (s.input.map (·.redact text)).getD text

/-- Runs steps on a machine, seen from the folder `home`; each has the same time. -/
def Executor.processes (limit : Time.Span) (home : Place) : Executor Machine := fun s m =>
  match m.start home (s.toProgram limit) with
  | (.notStarted, m) => (.error (.notStarted s.name none), m)
  | (.overdue, m) => (.error (.stepTimeout s.name limit), m)
  | (.done exit out err, m) => (.ok ⟨exit, s.shown out, s.shown err⟩, m)

/-! ## Rehearsing steps -/

/-- How a rehearsed step ends. -/
inductive Cue.Effect where
  | notStarted (cause : String)
  | timeout (limit : Time.Span)
  | output (o : Step.Output)
deriving DecidableEq

/-- A word, and how a step ends that it occurs in. -/
structure Cue where
  word : String
  effect : Cue.Effect
deriving DecidableEq

namespace Cue

/-- Whether a cue is for a step. -/
def isFor (c : Cue) (s : Step) : Bool :=
  Text.contains c.word.toList s.name.toList || Text.contains c.word.toList s.commandLine.toList

/-- How a step ends. -/
def Effect.outcome (s : Step) : Effect → Step.Outcome
  | notStarted cause => .error (.notStarted s.name (some cause))
  | timeout limit => .error (.stepTimeout s.name limit)
  | output o => .ok o

end Cue

/-- The first cue for a step decides. -/
def Executor.rehearsed (cues : List Cue) : Executor Unit := fun s state =>
  (((cues.find? (·.isFor s)).map (·.effect.outcome s)).getD (.ok {}), state)

end Steward.Ci
