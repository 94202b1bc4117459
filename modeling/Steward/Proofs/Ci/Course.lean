import Steward.Ci.Job

/-!
# What may happen while a job runs

`j.Happens log r`: while the job `j` runs, the events `log` may be seen. Any step may end in any
way, and of two jobs at once either may get ahead of the other. `r` is the result; it is `none`
while the job is not over, and where it was cut off because a job beside it had failed.

* `Job.happens_run`: a run under an executor is one such course of events.
* `Job.happens_bind`, `Task.happens_bind`: the events of a job in two parts are those of its parts.
* `Task.happens_runSteps_ok`, `Task.happens_all_ok`: a stage that ends well has started all of its
  steps, in order, and each of them has passed; so has every one of several stages at once.
-/

namespace Steward.Ci

/-- A step is started, or has ended. -/
inductive Event where
  | started (s : Step)
  | ended (s : Step) (o : Step.Outcome)

/-- The steps that were started. -/
def Event.starts (log : List Event) : List Step :=
  log.filterMap fun
    | started s => some s
    | ended _ _ => none

theorem Event.starts_append (u v : List Event) : starts (u ++ v) = starts u ++ starts v :=
  List.filterMap_append

/-! ## Events of two jobs at once -/

/-- The third list takes turns between the first two. -/
inductive Shuffle {τ : Type} : List τ → List τ → List τ → Prop
  | nil : Shuffle [] [] []
  | left {a : τ} {u v w : List τ} : Shuffle u v w → Shuffle (a :: u) v (a :: w)
  | right {a : τ} {u v w : List τ} : Shuffle u v w → Shuffle u (a :: v) (a :: w)

namespace Shuffle

variable {τ : Type} {u v w : List τ}

theorem append (u v : List τ) : Shuffle u v (u ++ v) := by
  induction u with
  | nil =>
    induction v with
    | nil => exact .nil
    | cons a v ih => exact ih.right
  | cons a u ih => exact ih.left

theorem sublist_left (h : Shuffle u v w) : u.Sublist w := by
  induction h with
  | nil => exact .slnil
  | left _ ih => exact ih.cons_cons _
  | right _ ih => exact ih.cons _

theorem sublist_right (h : Shuffle u v w) : v.Sublist w := by
  induction h with
  | nil => exact .slnil
  | left _ ih => exact ih.cons _
  | right _ ih => exact ih.cons_cons _

theorem mem_iff (h : Shuffle u v w) {a : τ} : a ∈ w ↔ a ∈ u ∨ a ∈ v := by
  induction h with
  | nil => simp
  | left _ ih => simp only [List.mem_cons, ih, or_assoc]
  | right _ ih =>
    simp only [List.mem_cons, ih]
    exact or_left_comm

end Shuffle

/-! ## Jobs -/

namespace Job

variable {α β γ σ : Type} {log : List Event}

instance : LawfulMonad Job := by
  have bind_assoc : ∀ {α β γ : Type} (j : Job α) (f : α → Job β) (g : β → Job γ),
      (j.bind f).bind g = j.bind fun a => (f a).bind g := by
    intro α β γ j f g
    induction j with
    | done a => rfl
    | step s next ih => exact congrArg (step s) (funext fun o => ih o f)
    | both left right next _ _ ih => exact congrArg (both left right) (funext fun r => ih r f)
  have bind_done : ∀ {α : Type} (j : Job α), j.bind done = j := by
    intro α j
    induction j with
    | done a => rfl
    | step s next ih => exact congrArg (step s) (funext ih)
    | both left right next _ _ ih => exact congrArg (both left right) (funext ih)
  exact LawfulMonad.mk' Job bind_done (fun _ _ => rfl) bind_assoc

/-- The events that may be seen while a job runs, and its result once it is over. -/
inductive Happens : {α : Type} → Job α → List Event → Option α → Prop
  | cut {α : Type} {j : Job α} : Happens j [] none
  | done {α : Type} {a : α} : Happens (done a) [] (some a)
  | started {α : Type} {s : Step} {next : Step.Outcome → Job α} :
      Happens (step s next) [.started s] none
  | step {α : Type} {s : Step} {next : Step.Outcome → Job α} {o : Step.Outcome}
      {log : List Event} {r : Option α} :
      Happens (next o) log r → Happens (step s next) (.started s :: .ended s o :: log) r
  | during {α β γ : Type} {left : Job (Except Fault β)} {right : Job (Except Fault γ)}
      {next : Except Fault (β × γ) → Job α} {u v w : List Event} {x : Option (Except Fault β)}
      {y : Option (Except Fault γ)} :
      Happens left u x → Happens right v y → Shuffle u v w → Happens (both left right next) w none
  | leftFails {α β γ : Type} {left : Job (Except Fault β)} {right : Job (Except Fault γ)}
      {next : Except Fault (β × γ) → Job α} {u v w log : List Event} {e : Fault}
      {y : Option (Except Fault γ)} {r : Option α} :
      Happens left u (some (.error e)) → Happens right v y → Shuffle u v w →
      Happens (next (.error e)) log r → Happens (both left right next) (w ++ log) r
  | rightFails {α β γ : Type} {left : Job (Except Fault β)} {right : Job (Except Fault γ)}
      {next : Except Fault (β × γ) → Job α} {u v w log : List Event} {e : Fault}
      {x : Option (Except Fault β)} {r : Option α} :
      Happens left u x → Happens right v (some (.error e)) → Shuffle u v w →
      Happens (next (.error e)) log r → Happens (both left right next) (w ++ log) r
  | join {α β γ : Type} {left : Job (Except Fault β)} {right : Job (Except Fault γ)}
      {next : Except Fault (β × γ) → Job α} {u v w log : List Event} {b : β} {c : γ}
      {r : Option α} :
      Happens left u (some (.ok b)) → Happens right v (some (.ok c)) → Shuffle u v w →
      Happens (next (.ok (b, c))) log r → Happens (both left right next) (w ++ log) r

/-- A job that is over was not over before. -/
theorem Happens.unfinished {j : Job α} {r : Option α} (h : j.Happens log r) :
    j.Happens log none := by
  induction h with
  | cut => exact .cut
  | done => exact .cut
  | started => exact .started
  | step _ ih => exact .step ih
  | during hl hr hs => exact .during hl hr hs
  | leftFails hl hr hs _ _ _ ih => exact .leftFails hl hr hs ih
  | rightFails hl hr hs _ _ _ ih => exact .rightFails hl hr hs ih
  | join hl hr hs _ _ _ ih => exact .join hl hr hs ih

theorem Happens.bind {j : Job α} {f : α → Job β} {x : Option α} (h : j.Happens log x)
    {rest : List Event} {r : Option β} (hx : ∀ a, x = some a → (f a).Happens rest r)
    (hnone : x = none → rest = [] ∧ r = none) : (j.bind f).Happens (log ++ rest) r := by
  induction h with
  | cut =>
    obtain ⟨rfl, rfl⟩ := hnone rfl
    exact .cut
  | done => exact hx _ rfl
  | started =>
    obtain ⟨rfl, rfl⟩ := hnone rfl
    exact .started
  | step _ ih => exact .step (ih hx hnone)
  | during hl hr hs =>
    obtain ⟨rfl, rfl⟩ := hnone rfl
    rw [List.append_nil]
    exact .during hl hr hs
  | leftFails hl hr hs _ _ _ ih =>
    rw [List.append_assoc]
    exact .leftFails hl hr hs (ih hx hnone)
  | rightFails hl hr hs _ _ _ ih =>
    rw [List.append_assoc]
    exact .rightFails hl hr hs (ih hx hnone)
  | join hl hr hs _ _ _ ih =>
    rw [List.append_assoc]
    exact .join hl hr hs (ih hx hnone)

theorem happens_bind {j : Job α} {f : α → Job β} {r : Option β} :
    (j.bind f).Happens log r ↔ (j.Happens log none ∧ r = none) ∨
      ∃ a first rest, j.Happens first (some a) ∧ (f a).Happens rest r ∧ log = first ++ rest := by
  constructor
  · intro h
    induction j generalizing log with
    | done a => exact .inr ⟨a, [], log, .done, h, rfl⟩
    | step s next ih =>
      cases h with
      | cut => exact .inl ⟨.cut, rfl⟩
      | started => exact .inl ⟨.started, rfl⟩
      | step h =>
        rcases ih _ h with ⟨hj, hr⟩ | ⟨a, first, rest, hj, hf, rfl⟩
        · exact .inl ⟨.step hj, hr⟩
        · exact .inr ⟨a, _, rest, .step hj, hf, rfl⟩
    | both left right next _ _ ih =>
      cases h with
      | cut => exact .inl ⟨.cut, rfl⟩
      | during hl hr hs => exact .inl ⟨.during hl hr hs, rfl⟩
      | leftFails hl hr hs h =>
        rcases ih _ h with ⟨hj, hr'⟩ | ⟨a, first, rest, hj, hf, rfl⟩
        · exact .inl ⟨.leftFails hl hr hs hj, hr'⟩
        · exact .inr ⟨a, _, rest, .leftFails hl hr hs hj, hf, (List.append_assoc ..).symm⟩
      | rightFails hl hr hs h =>
        rcases ih _ h with ⟨hj, hr'⟩ | ⟨a, first, rest, hj, hf, rfl⟩
        · exact .inl ⟨.rightFails hl hr hs hj, hr'⟩
        · exact .inr ⟨a, _, rest, .rightFails hl hr hs hj, hf, (List.append_assoc ..).symm⟩
      | join hl hr hs h =>
        rcases ih _ h with ⟨hj, hr'⟩ | ⟨a, first, rest, hj, hf, rfl⟩
        · exact .inl ⟨.join hl hr hs hj, hr'⟩
        · exact .inr ⟨a, _, rest, .join hl hr hs hj, hf, (List.append_assoc ..).symm⟩
  · rintro (⟨hj, rfl⟩ | ⟨a, first, rest, hj, hf, rfl⟩)
    · have hb : (j.bind f).Happens (log ++ []) none :=
        hj.bind (fun _ h => nomatch h) fun _ => ⟨rfl, rfl⟩
      rwa [List.append_nil] at hb
    · exact hj.bind (fun _ h => Option.some.inj h ▸ hf) fun h => nomatch h

/-- A run under an executor is a course of events in which each step ends before the next. -/
theorem happens_run (e : Executor σ) (j : Job α) (state : σ) : ∃ log,
    j.Happens log (some (j.run e state).result) ∧ Event.starts log = (j.run e state).executed := by
  induction j generalizing state with
  | done a => exact ⟨[], .done, rfl⟩
  | step s next ih =>
    obtain ⟨log, h, hs⟩ := ih (e s state).1 (e s state).2
    exact ⟨_, .step (o := (e s state).1) h, congrArg (s :: ·) hs⟩
  | both left right next ihl ihr ih =>
    -- The executor runs the left job to its end first, so its events stand before all of the right
    -- one's; where it fails, the right job is cut off before its first event.
    obtain ⟨u, hu, hus⟩ := ihl state
    simp only [run]
    split
    · next fault hf =>
      rw [hf] at hu
      obtain ⟨log, h, hs⟩ := ih (.error fault) (left.run e state).state
      have hshuffle : Shuffle u [] u := by simpa using Shuffle.append u []
      refine ⟨u ++ log, .leftFails hu .cut hshuffle h, ?_⟩
      rw [Event.starts_append, hus, hs]
      rfl
    · next b hb =>
      rw [hb] at hu
      obtain ⟨v, hv, hvs⟩ := ihr (left.run e state).state
      obtain ⟨log, h, hs⟩ := ih
        ((right.run e (left.run e state).state).result.map (b, ·))
        (right.run e (left.run e state).state).state
      refine ⟨u ++ v ++ log, ?_, ?_⟩
      · revert hv h
        cases (right.run e (left.run e state).state).result with
        | error fault => exact fun hv h => .rightFails hu hv (.append u v) h
        | ok c => exact fun hv h => .join hu hv (.append u v) h
      · rw [Event.starts_append, Event.starts_append, hus, hvs, hs]
        rfl

end Job

/-! ## Tasks -/

namespace Task

variable {α β : Type} {log : List Event}

/-- The events that may be seen while a task runs, and how it ends. -/
def Happens (t : Task α) (log : List Event) (r : Option (Except Fault α)) : Prop :=
  Job.Happens (ExceptT.run t) log r

theorem Happens.unfinished {t : Task α} {r : Option (Except Fault α)} (h : Happens t log r) :
    Happens t log none :=
  Job.Happens.unfinished h

theorem happens_pure {a : α} {r : Option (Except Fault α)} (h : Happens (pure a) log r) :
    log = [] ∧ (r = none ∨ r = some (.ok a)) := by
  cases h with
  | cut => exact ⟨rfl, .inl rfl⟩
  | done => exact ⟨rfl, .inr rfl⟩

theorem happens_ofExcept {x : Except Fault α} {r : Except Fault α}
    (h : Happens (Task.ofExcept x) log (some r)) : log = [] ∧ r = x := by
  cases h with
  | done => exact ⟨rfl, rfl⟩

theorem happens_bind {t : Task α} {f : α → Task β} {r : Option (Except Fault β)} :
    Happens (t >>= f) log r ↔ (Happens t log none ∧ r = none) ∨
      (∃ e, Happens t log (some (.error e)) ∧ r = some (.error e)) ∨
      ∃ a first rest, Happens t first (some (.ok a)) ∧ Happens (f a) rest r ∧
        log = first ++ rest := by
  refine Job.happens_bind.trans ?_
  constructor
  · rintro (h | ⟨x, first, rest, ht, hf, rfl⟩)
    · exact .inl h
    · cases x with
      | ok a => exact .inr (.inr ⟨a, first, rest, ht, hf, rfl⟩)
      | error e =>
        -- What follows a fault is over at once; it may still be cut off before it says so.
        cases hf with
        | cut =>
          rw [List.append_nil]
          exact .inl ⟨ht.unfinished, rfl⟩
        | done =>
          rw [List.append_nil]
          exact .inr (.inl ⟨e, ht, rfl⟩)
  · rintro (h | ⟨e, ht, rfl⟩ | ⟨a, first, rest, ht, hf, rfl⟩)
    · exact .inl h
    · exact .inr ⟨.error e, log, [], ht, .done, (List.append_nil log).symm⟩
    · exact .inr ⟨.ok a, first, rest, ht, hf, rfl⟩

theorem happens_bind_ok {t : Task α} {f : α → Task β} {b : β}
    (h : Happens (t >>= f) log (some (.ok b))) : ∃ a first rest,
      Happens t first (some (.ok a)) ∧ Happens (f a) rest (some (.ok b)) ∧ log = first ++ rest := by
  rcases happens_bind.1 h with ⟨_, h⟩ | ⟨_, _, h⟩ | h
  · cases h
  · cases h
  · exact h

/-- All steps that are started while the task runs satisfy `P`. -/
def Starts (P : Step → Prop) (t : Task α) : Prop :=
  ∀ ⦃log : List Event⦄ ⦃r : Option (Except Fault α)⦄, Happens t log r →
    ∀ ⦃s : Step⦄, .started s ∈ log → P s

/-- The second part is run on a result of the first. -/
theorem starts_bind {P : Step → Prop} {t : Task α} {f : α → Task β} (h : Starts P t)
    (hf : ∀ a log, Happens t log (some (.ok a)) → Starts P (f a)) : Starts P (t >>= f) := by
  intro log r hlog s hs
  rcases happens_bind.1 hlog with ⟨ht, -⟩ | ⟨e, ht, -⟩ | ⟨a, first, rest, ht, hrest, rfl⟩
  · exact h ht hs
  · exact h ht hs
  · rcases List.mem_append.1 hs with hs | hs
    · exact h ht hs
    · exact hf a first ht hrest hs

theorem happens_both_ok {t : Task α} {t' : Task β} {x : α × β}
    (h : Happens (t.both t') log (some (.ok x))) : ∃ u v,
      Happens t u (some (.ok x.1)) ∧ Happens t' v (some (.ok x.2)) ∧ Shuffle u v log := by
  cases h with
  | leftFails _ _ _ h => cases h
  | rightFails _ _ _ h => cases h
  | join hl hr hs h =>
    cases h
    rw [List.append_nil]
    exact ⟨_, _, hl, hr, hs⟩

/-- A task in two parts under an executor: the second part is left out where the first one fails. -/
theorem run_bind {σ : Type} (e : Executor σ) (t : Task α) (f : α → Task β) (state : σ) :
    (ExceptT.run (t >>= f)).run e state =
      let first := (ExceptT.run t).run e state
      match first.result with
      | .ok a => ((ExceptT.run (f a)).run e first.state).after first.executed
      | .error fault => ⟨.error fault, first.executed, first.state⟩ := by
  refine (Job.run_bind e (ExceptT.run t) _ state).trans ?_
  simp only
  split <;> rename_i hr <;> rw [hr]
  · rfl
  · simp [ExceptT.bindCont, pure, Job.run, Job.Run.after]

theorem run_pure {σ : Type} (e : Executor σ) (a : α) (state : σ) :
    (ExceptT.run (pure a : Task α)).run e state = ⟨.ok a, [], state⟩ := rfl

theorem run_bind_of_ok {σ : Type} {e : Executor σ} {t : Task α} {state next : σ} {a : α}
    {steps : List Step} (h : (ExceptT.run t).run e state = ⟨.ok a, steps, next⟩)
    (f : α → Task β) :
    (ExceptT.run (t >>= f)).run e state = ((ExceptT.run (f a)).run e next).after steps := by
  rw [run_bind]
  simp only [h]

theorem run_bind_of_error {σ : Type} {e : Executor σ} {t : Task α} {state last : σ}
    {fault : Fault} {steps : List Step}
    (h : (ExceptT.run t).run e state = ⟨.error fault, steps, last⟩) (f : α → Task β) :
    (ExceptT.run (t >>= f)).run e state = ⟨.error fault, steps, last⟩ := by
  rw [run_bind]
  simp only [h]

/-! ## Steps that pass -/

/-- The steps were run one after the other, and all of them have passed. -/
inductive Passed : List Step → List Event → Prop
  | nil : Passed [] []
  | cons {s : Step} {out : Step.Output} {steps : List Step} {log : List Event} :
      out.passed = true → Passed steps log →
      Passed (s :: steps) (.started s :: .ended s (.ok out) :: log)

theorem happens_step_ok {s : Step} {out : Step.Output} (h : Happens s.run log (some (.ok out))) :
    log = [.started s, .ended s (.ok out)] ∧ out.passed = true := by
  obtain ⟨o, hlog, ho⟩ : ∃ o, log = [.started s, .ended s o] ∧ s.judge o = .ok out := by
    rw [Happens] at h
    generalize hx : some (Except.ok out) = x at h
    cases h with
    | cut => cases hx
    | started => cases hx
    | step h =>
      cases h with
      | cut => cases hx
      | done => exact ⟨_, rfl, (Option.some.inj hx).symm⟩
  cases o with
  | error e => cases ho
  | ok out' =>
    rw [Step.judge] at ho
    split at ho
    · next hp =>
      cases ho
      exact ⟨hlog, hp⟩
    · cases ho

theorem happens_runSteps_ok {steps : List Step} {outs : List Step.Output}
    (h : Happens (runSteps steps) log (some (.ok outs))) : Passed steps log := by
  induction steps generalizing log outs with
  | nil =>
    obtain ⟨rfl, -⟩ := happens_pure h
    exact .nil
  | cons s steps ih =>
    rw [runSteps, List.mapM_cons] at h
    obtain ⟨out, first, rest, hfirst, hrest, rfl⟩ := happens_bind_ok h
    obtain ⟨outs', more, last, hmore, hlast, rfl⟩ := happens_bind_ok hrest
    obtain ⟨rfl, -⟩ := happens_pure hlast
    obtain ⟨rfl, hp⟩ := happens_step_ok hfirst
    rw [List.append_nil]
    exact .cons hp (ih hmore)

theorem happens_all_ok {tasks : List (Task α)} {results : List α}
    (h : Happens (Task.all tasks) log (some (.ok results))) {t : Task α} (ht : t ∈ tasks) :
    ∃ a own, Happens t own (some (.ok a)) ∧ own.Sublist log := by
  induction tasks generalizing log results with
  | nil => cases ht
  | cons t' tasks ih =>
    obtain ⟨⟨a, more⟩, first, rest, hfirst, hrest, rfl⟩ := happens_bind_ok h
    obtain ⟨rfl, -⟩ := happens_pure hrest
    obtain ⟨u, v, hu, hv, hs⟩ := happens_both_ok hfirst
    rw [List.append_nil]
    rcases List.mem_cons.1 ht with rfl | ht
    · exact ⟨a, u, hu, hs.sublist_left⟩
    · obtain ⟨b, own, hown, hsub⟩ := ih hv ht
      exact ⟨b, own, hown, hsub.trans hs.sublist_right⟩

end Task

end Steward.Ci
