import Mathlib.Data.List.Forall2
import Steward.Proofs.Ci.Course

/-!
# Jobs that differ in single steps

`j.Alike R j'`: the jobs `j` and `j'` do the same, but for steps, which are related by `R` one by
one. A job is `Only P` if all steps that it may ever start satisfy `P`.

* `Alike.run`: an executor that cannot tell related steps apart runs both jobs to the same result.
* `Only.started`: whatever happens while a job runs, no other steps are started.
-/

namespace Steward.Ci

namespace Job

variable {α β γ σ : Type} {R R' : Step → Step → Prop} {P Q : Step → Prop}

/-- The jobs differ in related steps only. -/
inductive Alike (R : Step → Step → Prop) : {α : Type} → Job α → Job α → Prop
  | done {α : Type} {a : α} : Alike R (done a) (done a)
  | step {α : Type} {s s' : Step} {next next' : Step.Outcome → Job α} :
      R s s' → (∀ o, Alike R (next o) (next' o)) → Alike R (step s next) (step s' next')
  | both {α β γ : Type} {left left' : Job (Except Fault β)} {right right' : Job (Except Fault γ)}
      {next next' : Except Fault (β × γ) → Job α} :
      Alike R left left' → Alike R right right' → (∀ r, Alike R (next r) (next' r)) →
      Alike R (both left right next) (both left' right' next')

/-- All steps that the job may start satisfy `P`. -/
def Only (P : Step → Prop) (j : Job α) : Prop := Alike (fun s s' => s = s' ∧ P s) j j

theorem Alike.mono {j j' : Job α} (h : Alike R j j') (hr : ∀ s s', R s s' → R' s s') :
    Alike R' j j' := by
  induction h with
  | done => exact .done
  | step hs _ ih => exact .step (hr _ _ hs) ih
  | both _ _ _ ihl ihr ih => exact .both ihl ihr ih

theorem Alike.bind {j j' : Job α} {f f' : α → Job β} (h : Alike R j j')
    (hf : ∀ a, Alike R (f a) (f' a)) : Alike R (j.bind f) (j'.bind f') := by
  induction h with
  | done => exact hf _
  | step hs _ ih => exact .step hs fun o => ih o hf
  | both hl hr _ _ _ ih => exact .both hl hr fun r => ih r hf

theorem Only.alike {j : Job α} (h : Only P j) (hr : ∀ s, P s → R s s) : Alike R j j := by
  refine Alike.mono h ?_
  rintro s _ ⟨rfl, hs⟩
  exact hr s hs

theorem Only.mono {j : Job α} (h : Only P j) (hp : ∀ s, P s → Q s) : Only Q j :=
  h.alike fun s hs => ⟨rfl, hp s hs⟩

/-- Related jobs under an executor that cannot tell related steps apart. -/
theorem Alike.run {j j' : Job α} (h : Alike R j j') {e : Executor σ}
    (he : ∀ s s' state, R s s' → e s state = e s' state) (state : σ) :
    (j.run e state).result = (j'.run e state).result ∧
      List.Forall₂ R (j.run e state).executed (j'.run e state).executed ∧
      (j.run e state).state = (j'.run e state).state := by
  induction h generalizing state with
  | done => exact ⟨rfl, .nil, rfl⟩
  | @step _ s s' next next' hs _ ih =>
    obtain ⟨hr, hx, ht⟩ := ih (e s state).1 (e s state).2
    simp only [Job.run, ← he s s' state hs]
    exact ⟨hr, .cons hs hx, ht⟩
  | @both _ _ _ left left' right right' next next' _ _ _ ihl ihr ih =>
    obtain ⟨hlr, hlx, hlt⟩ := ihl state
    simp only [Job.run, ← hlr, ← hlt]
    split
    · next fault _ =>
      obtain ⟨hr, hx, ht⟩ := ih (.error fault) (left.run e state).state
      exact ⟨hr, List.rel_append hlx hx, ht⟩
    · next b _ =>
      obtain ⟨hrr, hrx, hrt⟩ := ihr (left.run e state).state
      obtain ⟨hr, hx, ht⟩ := ih ((right.run e (left.run e state).state).result.map (b, ·))
        (right.run e (left.run e state).state).state
      rw [← hrr, ← hrt]
      exact ⟨hr, List.rel_append (List.rel_append hlx hrx) hx, ht⟩

theorem Only.started {j : Job α} {log : List Event} {r : Option α} (h : Only P j)
    (hj : j.Happens log r) {s : Step} (hs : .started s ∈ log) : P s := by
  induction hj with
  | cut | done => cases hs
  | started =>
    obtain rfl : s = _ := by simpa using hs
    cases h with
    | step hp _ => exact hp.2
  | @step _ s' next o log r _ ih =>
    cases h with
    | step hp hnext =>
      simp only [List.mem_cons, reduceCtorEq, false_or, Event.started.injEq] at hs
      rcases hs with rfl | hs
      · exact hp.2
      · exact ih (hnext o) hs
  | during _ _ hw ihl ihr =>
    cases h with
    | both hl hr _ =>
      rcases hw.mem_iff.1 hs with hs | hs
      · exact ihl hl hs
      · exact ihr hr hs
  | leftFails _ _ hw _ ihl ihr ih | rightFails _ _ hw _ ihl ihr ih | join _ _ hw _ ihl ihr ih =>
    cases h with
    | both hl hr hnext =>
      rcases List.mem_append.1 hs with hs | hs
      · rcases hw.mem_iff.1 hs with hs | hs
        · exact ihl hl hs
        · exact ihr hr hs
      · exact ih (hnext _) hs

end Job

/-! ## Tasks -/

namespace Task

variable {α β : Type} {R : Step → Step → Prop} {P : Step → Prop}

/-- The tasks differ in related steps only. -/
def Alike (R : Step → Step → Prop) (t t' : Task α) : Prop :=
  Job.Alike R (ExceptT.run t) (ExceptT.run t')

/-- All steps that the task may start satisfy `P`. -/
def Only (P : Step → Prop) (t : Task α) : Prop := Job.Only P (ExceptT.run t)

theorem alike_bind {t t' : Task α} {f f' : α → Task β} (h : Alike R t t')
    (hf : ∀ a, Alike R (f a) (f' a)) : Alike R (t >>= f) (t' >>= f') := by
  refine Job.Alike.bind h fun r => ?_
  cases r with
  | ok a => exact hf a
  | error e => exact .done

theorem Only.mono {t : Task α} {Q : Step → Prop} (h : Only P t) (hp : ∀ s, P s → Q s) : Only Q t :=
  Job.Only.mono h hp

theorem Only.alike {t : Task α} (h : Only P t) (hr : ∀ s, P s → R s s) : Alike R t t :=
  Job.Only.alike h hr

theorem Only.started {t : Task α} (h : Only P t) : Starts P t :=
  fun _ _ ht _ hs => Job.Only.started h ht hs

theorem only_pure (a : α) : Only P (pure a) := .done

theorem only_bind {t : Task α} {f : α → Task β} (h : Only P t) (hf : ∀ a, Only P (f a)) :
    Only P (t >>= f) := alike_bind h hf

/-- What is done with the value is only done if there is one. -/
theorem alike_ofExcept_bind {r : Except Fault α} {f f' : α → Task β}
    (h : ∀ a, r = .ok a → Alike R (f a) (f' a)) :
    Alike R (Task.ofExcept r >>= f) (Task.ofExcept r >>= f') := by
  cases r with
  | ok a => exact h a rfl
  | error e => exact .done

theorem only_ofExcept_bind {r : Except Fault α} {f : α → Task β}
    (h : ∀ a, r = .ok a → Only P (f a)) : Only P (Task.ofExcept r >>= f) := alike_ofExcept_bind h

/-- What a step's outcome means depends on the step's name only. -/
theorem judge_eq {s s' : Step} (h : s.name = s'.name) (o : Step.Outcome) :
    s.judge o = s'.judge o := by
  unfold Step.judge Step.failure
  rw [h]

theorem alike_step {s s' : Step} (h : R s s') (hn : s.name = s'.name) : Alike R s.run s'.run := by
  refine .step h fun o => ?_
  show Job.Alike R (Job.done (s.judge o)) (Job.done (s'.judge o))
  rw [judge_eq hn]
  exact .done

theorem alike_runSteps {steps steps' : List Step} (h : List.Forall₂ R steps steps')
    (hn : ∀ s s', R s s' → s.name = s'.name) : Alike R (runSteps steps) (runSteps steps') := by
  induction h with
  | nil => exact .done
  | cons hs _ ih =>
    rw [runSteps, runSteps, List.mapM_cons, List.mapM_cons]
    exact alike_bind (alike_step hs (hn _ _ hs)) fun _ => alike_bind ih fun _ => .done

theorem only_step {s : Step} (h : P s) : Only P s.run := alike_step ⟨rfl, h⟩ rfl

theorem only_runSteps {steps : List Step} (h : ∀ s ∈ steps, P s) : Only P (runSteps steps) := by
  refine alike_runSteps (List.forall₂_same.2 fun s hs => ⟨rfl, h s hs⟩) ?_
  rintro s _ ⟨rfl, -⟩
  rfl

theorem alike_both {t t' : Task α} {u u' : Task β} (h : Alike R t t') (h' : Alike R u u') :
    Alike R (t.both u) (t'.both u') := .both h h' fun _ => .done

theorem only_both {t : Task α} {t' : Task β} (h : Only P t) (h' : Only P t') :
    Only P (t.both t') := alike_both h h'

theorem only_all {tasks : List (Task α)} (h : ∀ t ∈ tasks, Only P t) :
    Only P (Task.all tasks) := by
  induction tasks with
  | nil => exact only_pure []
  | cons t tasks ih =>
    refine only_bind (only_both (h t List.mem_cons_self) ?_) fun _ => only_pure _
    exact ih fun t' ht => h t' (List.mem_cons_of_mem _ ht)

end Task

end Steward.Ci
