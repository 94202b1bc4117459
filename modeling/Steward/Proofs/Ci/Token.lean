import Steward.Proofs.Ci.Work

/-!
# What becomes of the registry's token

The token is read by the step that opens the registry, and nothing else depends on it.

* `alike_perform`: an operation is the same work with any two tokens, but for what that step reads.
* `token_read_by_login`: dry runs with two tokens list the same steps and end alike; without a token
  nothing that publishes starts a step.
-/

namespace Steward.Ci

open Steward.Ci.Task

variable {c : Config} {o : Order} {t t' : Secret} {s s' : Step}

/-- Two steps that differ in nothing but the tokens that they read, and only where they open the
registry. -/
structure Step.Retold (t t' : Secret) (s s' : Step) : Prop where
  name : s.name = s'.name
  program : s.program = s'.program
  args : s.args = s'.args
  directory : s.directory = s'.directory
  env : s.env = s'.env
  commandLine : s.commandLine = s'.commandLine
  login : s.Docker "login" → s.input = some t ∧ s'.input = some t'
  other : ¬s.Docker "login" → s.input = none ∧ s'.input = none

theorem Config.Work.retold (h : c.Work o s) : s.Retold t t' s where
  name := rfl
  program := rfl
  args := rfl
  directory := rfl
  env := rfl
  commandLine := rfl
  login hd := absurd hd h.not_login
  other _ := ⟨h.input, h.input⟩

theorem retold_login (b : Backend) (o : Order) (t t' : Secret) :
    (b.login o t).Retold t t' (b.login o t') where
  name := rfl
  program := rfl
  args := rfl
  directory := rfl
  env := rfl
  commandLine := rfl
  login _ := ⟨rfl, rfl⟩
  other h := absurd (Backend.docker_login b o t) h

theorem retold_push (o : Order) (ref : String) (t t' : Secret) :
    (Backend.push o ref).Retold t t' (Backend.push o ref) where
  name := rfl
  program := rfl
  args := rfl
  directory := rfl
  env := rfl
  commandLine := rfl
  login h := by simpa using h.eq (Backend.docker_push o ref)
  other _ := ⟨rfl, rfl⟩

theorem alike_publish (c : Config) (o : Order) (t t' : Secret) (ref : String) :
    Alike (Step.Retold t t') (c.publish o t ref) (c.publish o t' ref) := by
  refine alike_bind (alike_runSteps ?_ fun _ _ h => h.name) fun _ => .done
  exact .cons (retold_login c.backend o t t') (.cons (retold_push o ref t t') .nil)

/-- An operation is the same work with any two tokens, but for what opens the registry. -/
theorem alike_perform (c : Config) (o : Order) (name : String) (ht : t.isEmpty = false)
    (ht' : t'.isEmpty = false) :
    Alike (Step.Retold t t') (perform c { o with token := some t } name)
      (perform c { o with token := some t' } name) := by
  unfold perform
  cases Operation.ofName? name with
  | none => exact .done
  | some op =>
    show Alike _ (op.run c _) (op.run c _)
    by_cases hd : op = .deploy
    · subst hd
      rw [Operation.run_deploy rfl ht, Operation.run_deploy rfl ht']
      refine alike_bind ((Config.work_runAll c o).alike fun _ h => h.retold) fun _ => ?_
      exact alike_bind (alike_publish c o t t' _) fun _ => .done
    · by_cases hp : op = .publishBackendImage
      · subst hp
        rw [Operation.run_publishBackendImage rfl ht, Operation.run_publishBackendImage rfl ht']
        refine alike_bind ((Config.work_buildImage c o).alike fun _ h => h.retold) fun ref => ?_
        exact alike_bind (alike_publish c o t t' ref) fun _ => .done
      · have same : op.run c { o with token := some t } = op.run c { o with token := some t' } := by
          cases op with
          | deploy => exact absurd rfl hd
          | publishBackendImage => exact absurd rfl hp
          | _ => rfl
        rw [← same]
        exact (Operation.work_run hd hp).alike fun _ h => h.retold

/-- The run of an operation whose steps are only listed. -/
def dryRun (c : Config) (o : Order) (name : String) : Job.Run Unit (Except Fault Result) :=
  (ExceptT.run (perform c o name)).run .dry ()

/-- Dry runs with two tokens list the same steps and end alike; the tokens are what the step reads
that opens the registry. What publishes fails without a token before any step is started. -/
theorem token_read_by_login (c : Config) (o : Order) :
    (∀ (name : String) (t t' : Secret), t.isEmpty = false → t'.isEmpty = false →
      (dryRun c { o with token := some t } name).result =
        (dryRun c { o with token := some t' } name).result ∧
      List.Forall₂ (Step.Retold t t') (dryRun c { o with token := some t } name).executed
        (dryRun c { o with token := some t' } name).executed) ∧
    ∀ op ∈ [Operation.deploy, .publishBackendImage], o.token = none ∨ o.token = some ⟨""⟩ →
      ∀ (σ : Type) (e : Executor σ) (state : σ),
        (ExceptT.run (perform c o op.name)).run e state =
          ⟨.error (.missingArgument op.name "registry-token"), [], state⟩ := by
  refine ⟨fun name t t' ht ht' => ?_, fun op hop hnone σ e state => ?_⟩
  · obtain ⟨hresult, hexecuted, -⟩ := Job.Alike.run (e := Executor.dry)
      (alike_perform c o name ht ht') (fun _ _ _ _ => rfl) ()
    exact ⟨hresult, hexecuted⟩
  · have hrun : op.run c o =
        Task.ofExcept (.error (.missingArgument op.name "registry-token")) := by
      have htoken := Order.registryToken_of_none hnone op.name
      simp only [List.mem_cons, List.not_mem_nil, or_false] at hop
      rcases hop with rfl | rfl <;> rw [Operation.run, htoken] <;> rfl
    rw [perform, Operation.ofName?_name]
    simp only [hrun]
    rfl

/-- An order that says nothing but where the sources are. -/
def plainOrder : Order := { source := "/repo" }

theorem token_read_by_login_published :
    ((⟨"alpha"⟩ : Secret).isEmpty = false ∧ (⟨"beta"⟩ : Secret).isEmpty = false) ∧
    (dryRun {} { plainOrder with token := some ⟨"alpha"⟩ } "publish-backend-image").executed.map
      (·.input) = [none, some ⟨"alpha"⟩, none] ∧
    List.Forall₂ (Step.Retold ⟨"alpha"⟩ ⟨"beta"⟩)
      (dryRun {} { plainOrder with token := some ⟨"alpha"⟩ } "publish-backend-image").executed
      (dryRun {} { plainOrder with token := some ⟨"beta"⟩ } "publish-backend-image").executed ∧
    plainOrder.token = none ∧
    dryRun {} plainOrder "deploy" =
      ⟨.error (.missingArgument "deploy" "registry-token"), [], ()⟩ := by
  obtain ⟨two, missing⟩ := token_read_by_login {} plainOrder
  have halpha : (⟨"alpha"⟩ : Secret).isEmpty = false := by decide
  have hbeta : (⟨"beta"⟩ : Secret).isEmpty = false := by decide
  refine ⟨⟨halpha, hbeta⟩, by rfl, ?_, rfl, ?_⟩
  · exact (two "publish-backend-image" ⟨"alpha"⟩ ⟨"beta"⟩ halpha hbeta).2
  · exact missing .deploy List.mem_cons_self (.inl rfl) Unit .dry ()

end Steward.Ci
