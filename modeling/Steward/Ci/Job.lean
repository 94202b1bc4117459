import Steward.Ci.Fault
import Steward.Text.Lines

/-!
# Jobs

Work that runs steps, where each step may depend on how the steps before it ended. Parts of a job
may run at once; the first fault among them ends them all. What becomes of a step is up to an
executor: a job is the same work whether its steps are run, rehearsed or only listed. A stage is
steps that run one after the other, up to the first that does not succeed.

* `Job.run_bind`: a job in two parts runs the steps of its parts one after the other.
-/

namespace Steward.Ci

/-- How a step ended: with output, or without having run to its end. -/
abbrev Step.Outcome := Except Fault Step.Output

/-- Work on steps. -/
inductive Job : Type → Type 1 where
  | done {α : Type} (result : α) : Job α
  | step {α : Type} (s : Step) (next : Step.Outcome → Job α) : Job α
  /-- Two jobs at once, either of which may end in a fault. -/
  | both {α β γ : Type} (left : Job (Except Fault β)) (right : Job (Except Fault γ))
      (next : Except Fault (β × γ) → Job α) : Job α

/-- What decides how steps end, with a state of its own. -/
abbrev Executor (σ : Type) := Step → σ → Step.Outcome × σ

/-- The result of a job, the steps that were executed, in order, and the executor's last state. -/
structure Job.Run (σ α : Type) where
  result : α
  executed : List Step
  state : σ

/-- A run that went on after steps that were executed before. -/
def Job.Run.after {σ α : Type} (r : Run σ α) (before : List Step) : Run σ α :=
  { r with executed := before ++ r.executed }

namespace Job

variable {α β σ : Type}

/-- A job followed by another that depends on its result. -/
def bind : Job α → (α → Job β) → Job β
  | done a, f => f a
  | step s next, f => step s fun o => (next o).bind f
  | both left right next, f => both left right fun r => (next r).bind f

instance : Monad Job where
  pure := done
  bind := bind

/-- One step. -/
def execute (s : Step) : Job Step.Outcome := step s done

/-- The run of a job under an executor with which every step ends at once. Of two jobs at once the
left one is then over before the right one has a turn, and a fault of the left one leaves the right
one no turn. -/
def run (e : Executor σ) : {α : Type} → Job α → σ → Run σ α
  | _, done a, state => ⟨a, [], state⟩
  | _, step s next, state =>
    let (o, state) := e s state
    ((next o).run e state).after [s]
  | _, both left right next, state =>
    let first := left.run e state
    match first.result with
    | .error fault => ((next (.error fault)).run e first.state).after first.executed
    | .ok a =>
      let second := right.run e first.state
      ((next (second.result.map (a, ·))).run e second.state).after
        (first.executed ++ second.executed)

theorem run_bind (e : Executor σ) (j : Job α) (f : α → Job β) (state : σ) :
    (j.bind f).run e state =
      let first := j.run e state
      ((f first.result).run e first.state).after first.executed := by
  induction j generalizing state with
  | done a => rfl
  | step s next ih => simp [bind, run, ih, Run.after]
  | both left right next _ _ ih =>
    simp only [bind, run]
    split <;> simp [ih, Run.after]

end Job

/-- A job that ends in a result or a fault. -/
abbrev Task (α : Type) := ExceptT Fault Job α

namespace Task

/-- A fault, or nothing to do. -/
def ofExcept {α : Type} (r : Except Fault α) : Task α := ExceptT.mk (.done r)

/-- Two tasks at once; the first fault ends them both. -/
def both {α β : Type} (left : Task α) (right : Task β) : Task (α × β) :=
  ExceptT.mk (.both (ExceptT.run left) (ExceptT.run right) .done)

/-- Tasks at once; the first fault ends them all. -/
def all {α : Type} : List (Task α) → Task (List α)
  | [] => return []
  | task :: rest => do
    let (a, more) ← task.both (all rest)
    return a :: more

end Task

namespace Executor

/-- Every step succeeds and leaves no output. -/
def dry : Executor Unit := fun _ state => (.ok {}, state)

end Executor

/-! ## Stages -/

/-- A named list of steps. -/
structure Stage where
  name : String
  steps : List Step
deriving DecidableEq

/-- The lines of a failed step's complaints that are kept. -/
def complaintLines : Nat := 20

namespace Step

/-- The fault of a step that has ended without success. -/
def failure (s : Step) (o : Output) : Fault :=
  .stepFailed s.name o.exit (Text.lastLines complaintLines o.err)

/-- What a step's outcome means: an end without success is a fault. -/
def judge (s : Step) : Outcome → Outcome
  | .ok o => if o.passed then .ok o else .error (s.failure o)
  | .error e => .error e

/-- Runs a step, which has to succeed. -/
def run (s : Step) : Task Output := ExceptT.mk do return s.judge (← Job.execute s)

end Step

/-- Runs steps in order, each of which has to succeed. -/
def runSteps (steps : List Step) : Task (List Step.Output) := steps.mapM Step.run

namespace Stage

/-- Runs the steps of a stage in order, each of which has to succeed. -/
def run (s : Stage) : Task (List Step.Output) := runSteps s.steps

/-- Runs stages at once; the first fault ends them all. -/
def runAll (stages : List Stage) : Task (List (List Step.Output)) := Task.all (stages.map run)

end Stage

end Steward.Ci
