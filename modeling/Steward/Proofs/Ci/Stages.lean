import Steward.Proofs.Ci.Course

/-!
# Stages up to their first failure

`e.Passes steps state outs last`: under the executor `e` the steps pass one after the other, which
takes its state from `state` to `last`. `e.Fails s state fault last`: the step `s` ends in a fault.

* `run_of_passes`, `run_of_fails`: the steps up to the first that fails are executed, and no others.
* `run_all`, `run_runAll_dry`: a dry run of several stages executes them one after the other.
* `stage_stops_at_first_failure`: both for every stage, whatever its steps do.
-/

namespace Steward

/-- The last `n` lines of a text, or all where there are fewer, joined by line feeds. -/
def Text.EndsIn (n : Nat) (text lines : String) : Prop :=
  ∃ before kept, Typed (before ++ kept) text.toList ∧
    kept.length = min n (before ++ kept).length ∧ lines = String.ofList (joinLines kept)

theorem Text.endsIn_iff {n : Nat} {text lines : String} :
    EndsIn n text lines ↔ lines = lastLines n text := by
  refine ⟨fun h => ?_, fun h => ?_⟩
  · obtain ⟨before, kept, htyped, hlength, rfl⟩ := h
    have hdrop : (before ++ kept).length - n = before.length ∨
        before = [] ∧ (before ++ kept).length ≤ n := by
      simp only [List.length_append] at hlength ⊢
      rcases Nat.le_total n (before.length + kept.length) with hn | hn
      · exact .inl (by omega)
      · exact .inr ⟨List.length_eq_zero_iff.1 (by omega), hn⟩
    rw [lastLines, htyped.lines_eq]
    rcases hdrop with hdrop | ⟨rfl, hle⟩
    · rw [hdrop, List.drop_left]
    · rw [Nat.sub_eq_zero_of_le hle, List.drop_zero, List.nil_append]
  · subst h
    have hsplit := List.take_append_drop ((Text.lines text.toList).length - n)
      (Text.lines text.toList)
    refine ⟨(Text.lines text.toList).take ((Text.lines text.toList).length - n), _, ?_, ?_, rfl⟩
    · rw [hsplit]
      exact typed_lines text.toList
    · rw [hsplit, List.length_drop]
      omega

namespace Ci

open Steward.Ci.Task

namespace Executor

variable {σ : Type}

/-- The steps pass one after the other and leave these outputs. -/
inductive Passes (e : Executor σ) : List Step → σ → List Step.Output → σ → Prop
  | nil {state : σ} : Passes e [] state [] state
  | cons {s : Step} {steps : List Step} {out : Step.Output} {outs : List Step.Output}
      {state next last : σ} : e s state = (.ok out, next) → out.exit = .code 0 →
      Passes e steps next outs last → Passes e (s :: steps) state (out :: outs) last

/-- The step does not run to its end, or ends otherwise than with the code zero. -/
inductive Fails (e : Executor σ) (s : Step) (state : σ) : Fault → σ → Prop
  | broken {fault : Fault} {last : σ} : e s state = (.error fault, last) →
      Fails e s state fault last
  | ended {out : Step.Output} {complaint : String} {last : σ} : e s state = (.ok out, last) →
      out.exit ≠ .code 0 → Text.EndsIn 20 out.err complaint →
      Fails e s state (.stepFailed s.name out.exit complaint) last

end Executor

variable {σ : Type} {e : Executor σ} {s : Step} {steps : List Step} {outs : List Step.Output}
  {fault : Fault} {state mid last : σ}

theorem Step.Output.passed_iff {out : Step.Output} : out.passed = true ↔ out.exit = .code 0 := by
  rcases out with ⟨n | _, _, _⟩ <;> simp [passed, Exit.passed]

/-- A step under an executor is executed and judged. -/
theorem run_step (e : Executor σ) (s : Step) (state : σ) :
    (ExceptT.run s.run).run e state = ⟨s.judge (e s state).1, [s], (e s state).2⟩ := rfl

theorem run_step_of_fails (h : e.Fails s state fault last) :
    (ExceptT.run s.run).run e state = ⟨.error fault, [s], last⟩ := by
  rw [run_step]
  cases h with
  | broken h => rw [h]; rfl
  | @ended out _ _ h hexit hcomplaint =>
    have hpassed : out.passed = false := by simpa using mt Step.Output.passed_iff.1 hexit
    rw [h, Text.endsIn_iff.1 hcomplaint]
    simp [Step.judge, hpassed, Step.failure, complaintLines]

/-- A step that passes leaves its output before those of the steps behind it. -/
theorem run_runSteps_cons {out : Step.Output} (h : e s state = (.ok out, mid))
    (hexit : out.exit = .code 0) :
    (ExceptT.run (runSteps (s :: steps))).run e state =
      (let rest := (ExceptT.run (runSteps steps)).run e mid
      ⟨rest.result.map (out :: ·), s :: rest.executed, rest.state⟩) := by
  have hstep : (ExceptT.run s.run).run e state = ⟨.ok out, [s], mid⟩ := by
    rw [run_step, h]
    simp [Step.judge, Step.Output.passed_iff.2 hexit]
  show (ExceptT.run ((s :: steps).mapM Step.run)).run e state = _
  rw [List.mapM_cons, run_bind_of_ok hstep]
  rcases hrest : (ExceptT.run (runSteps steps)).run e mid with ⟨fault | outs, executed, last⟩
  · rw [runSteps] at hrest
    rw [run_bind_of_error hrest]
    rfl
  · rw [runSteps] at hrest
    rw [run_bind_of_ok hrest, run_pure]
    simp [Job.Run.after, Except.map]

theorem run_of_passes (h : e.Passes steps state outs last) :
    (ExceptT.run (runSteps steps)).run e state = ⟨.ok outs, steps, last⟩ := by
  induction h with
  | nil => rfl
  | cons hs hexit _ ih =>
    rw [run_runSteps_cons hs hexit, ih]
    rfl

/-- The steps behind the first that fails are not executed. -/
theorem run_of_fails (h : e.Passes steps state outs mid) (hf : e.Fails s mid fault last)
    (after : List Step) :
    (ExceptT.run (runSteps (steps ++ s :: after))).run e state =
      ⟨.error fault, steps ++ [s], last⟩ := by
  induction h with
  | nil =>
    show (ExceptT.run ((s :: after).mapM Step.run)).run e _ = _
    rw [List.mapM_cons, run_bind_of_error (run_step_of_fails hf)]
    rfl
  | cons hs hexit _ ih =>
    rw [List.cons_append, run_runSteps_cons hs hexit, ih hf]
    rfl

theorem passes_or_fails (e : Executor σ) (steps : List Step) (state : σ) :
    (∃ outs last, e.Passes steps state outs last) ∨
      ∃ before s after outs mid fault last, steps = before ++ s :: after ∧
        e.Passes before state outs mid ∧ e.Fails s mid fault last := by
  induction steps generalizing state with
  | nil => exact .inl ⟨[], state, .nil⟩
  | cons s steps ih =>
    have hfirst {fault : Fault} {last : σ} (hf : e.Fails s state fault last) :
        ∃ before s' after outs mid fault last, s :: steps = before ++ s' :: after ∧
          e.Passes before state outs mid ∧ e.Fails s' mid fault last :=
      ⟨[], s, steps, [], state, fault, last, rfl, .nil, hf⟩
    rcases hs : e s state with ⟨fault | out, next⟩
    · exact .inr (hfirst (.broken hs))
    · by_cases hexit : out.exit = .code 0
      · rcases ih next with
          ⟨outs, last, h⟩ | ⟨before, s', after, outs, mid, fault, last, rfl, h, hf⟩
        · exact .inl ⟨out :: outs, last, .cons hs hexit h⟩
        · exact .inr ⟨s :: before, s', after, out :: outs, mid, fault, last, rfl,
            .cons hs hexit h, hf⟩
      · exact .inr (hfirst (.ended hs hexit (Text.endsIn_iff.2 rfl)))

/-! ## Dry runs -/

theorem passes_dry (steps : List Step) :
    Executor.dry.Passes steps () (steps.map fun _ => {}) () := by
  induction steps with
  | nil => exact .nil
  | cons s steps ih => exact .cons rfl rfl ih

theorem run_runSteps_dry (steps : List Step) :
    (ExceptT.run (runSteps steps)).run .dry () = ⟨.ok (steps.map fun _ => {}), steps, ()⟩ :=
  run_of_passes (passes_dry steps)

theorem run_both_of_ok {α β : Type} {t : Task α} {t' : Task β} {a : α} {b : β}
    {steps' : List Step} (h : (ExceptT.run t).run e state = ⟨.ok a, steps, mid⟩)
    (h' : (ExceptT.run t').run e mid = ⟨.ok b, steps', last⟩) :
    (ExceptT.run (t.both t')).run e state = ⟨.ok (a, b), steps ++ steps', last⟩ := by
  show Job.run e (.both (ExceptT.run t) (ExceptT.run t') .done) state = _
  simp [Job.run, h, h', Job.Run.after, Except.map]

/-- Tasks that end well in a dry run do so side by side, one after the other. -/
theorem run_all_dry {ι α : Type} {task : ι → Task α} {value : ι → α} {executed : ι → List Step}
    (h : ∀ i, (ExceptT.run (task i)).run .dry () = ⟨.ok (value i), executed i, ()⟩) (l : List ι) :
    (ExceptT.run (Task.all (l.map task))).run .dry () =
      ⟨.ok (l.map value), l.flatMap executed, ()⟩ := by
  induction l with
  | nil => rfl
  | cons i l ih =>
    rw [List.map_cons, Task.all, run_bind_of_ok (run_both_of_ok (h i) ih), run_pure]
    simp [Job.Run.after]

theorem run_runAll_dry (stages : List Stage) :
    (ExceptT.run (Stage.runAll stages)).run .dry () =
      ⟨.ok (stages.map fun stage => stage.steps.map fun _ => {}),
        stages.flatMap (·.steps), ()⟩ := by
  have hstage (stage : Stage) : (ExceptT.run stage.run).run .dry () =
      ⟨.ok (stage.steps.map fun _ => {}), stage.steps, ()⟩ := run_runSteps_dry stage.steps
  exact run_all_dry hstage stages

/-- A stage executes its steps up to the first that fails, whose fault it ends in; a dry run of
several stages executes all steps, stage by stage. -/
theorem stage_stops_at_first_failure :
    (∀ (σ : Type) (e : Executor σ) (stage : Stage) (state : σ),
      (∃ outs last, e.Passes stage.steps state outs last ∧
        (ExceptT.run stage.run).run e state = ⟨.ok outs, stage.steps, last⟩) ∨
      ∃ before s after outs mid fault last, stage.steps = before ++ s :: after ∧
        e.Passes before state outs mid ∧ e.Fails s mid fault last ∧
        (ExceptT.run stage.run).run e state = ⟨.error fault, before ++ [s], last⟩) ∧
    ∀ stages : List Stage,
      (ExceptT.run (Stage.runAll stages)).run .dry () =
        ⟨.ok (stages.map fun stage => stage.steps.map fun _ => {}),
          stages.flatMap (·.steps), ()⟩ := by
  refine ⟨fun σ e stage state => ?_, run_runAll_dry⟩
  rcases passes_or_fails e stage.steps state with
    ⟨outs, last, h⟩ | ⟨before, s, after, outs, mid, fault, last, hsteps, h, hf⟩
  · exact .inl ⟨outs, last, h, run_of_passes h⟩
  · refine .inr ⟨before, s, after, outs, mid, fault, last, hsteps, h, hf, ?_⟩
    rw [Stage.run, hsteps]
    exact run_of_fails h hf after

end Ci

end Steward
