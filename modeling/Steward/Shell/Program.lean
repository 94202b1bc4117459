import Steward.Shell.Run
import Steward.Time.Instant

/-!
# Starting programs

A program is started in a folder, with vars and something to read; it leaves behind how it
ended and what it printed, and a changed disk. One that goes on for too long is stopped.

The modules on scripts stand in for the programs of the machine that steps and tools run on, so that
these can be tried without it. What is proved of operations holds for every executor, whatever it
makes of a step, and rests on none of them.
-/

namespace Steward.Shell

open Time (Span)

/-- A program to start. -/
structure Program where
  name : String
  args : List String := []
  /-- The folder to start it in, seen from where it is started. -/
  folder : String := "."
  env : List (String × String) := []
  input : ByteArray := .empty
  /-- The time after which the program is stopped. -/
  limit : Span

/-- What becomes of a program. -/
inductive Program.End where
  | notStarted
  | overdue
  | done (exit : Exit) (out err : ByteArray)

/-- The steps that a script may take. -/
def fuel : Nat := 20000

/-- The time that it takes to start a program, in nanoseconds. -/
def startNanos : Nat := 1000000

/-- What a program does, if there is one of its name. -/
def Program.action? (p : Program) : Option (Act Nat) :=
  match bareName p.name with
  | "sh" | "dash" => some (interpret fuel p.args)
  | "env" | "printenv" => some (printVariables p.args)
  | name => ((utility? false name).orElse fun _ => filter? name).map (· p.args)

/-- The variables that a program is given; of several of one name the last counts. -/
def Program.vars (p : Program) : List Variable :=
  (p.env.foldl (fun vs (name, value) => setVariable name value vs) []).map
    fun v => { v with isShared := true }

namespace Machine

/-- The state in which a program starts. -/
def stateFor (m : Machine) (folder : Place) (p : Program) : State where
  machine := m
  deadline := some (m.clock + p.limit.nanos)
  vars := p.vars
  name := p.name
  arguments := []
  breaks := 0
  folder := folder
  input := p.input

/-- What becomes of a program that is started in the folder `home`, and the machine after it. -/
def start (m : Machine) (home : Place) (p : Program) : Program.End × Machine :=
  let folder := Place.of home p.folder
  match p.action? with
  | none => (.notStarted, m)
  | some action =>
    if m.disk.isFolder folder then
      let act : Act Nat := do
        pass startNanos
        action
      let (r, s) := (ExceptT.run act).run (m.stateFor folder p)
      match r with
      | .ok code | .error (.exit code) | .error (.back code) =>
        (.done (.code code) s.out s.err, s.machine)
      | .error (.signal _) => (.done .signal s.out s.err, s.machine)
      | .error (.leave _) | .error (.next _) => (.done (.code 0) s.out s.err, s.machine)
      | .error .overdue =>
        (.overdue, { s.machine with clock := m.clock + p.limit.nanos })
    else (.notStarted, m)

end Machine

end Steward.Shell
