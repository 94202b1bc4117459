import Steward.Ci.Config.Reader
import Steward.Proofs.Ci.Token
import Steward.Proofs.Store.Tables

/-!
# Packages of a configuration that has been checked

* `check_eq_error_iff`: which configurations are refused, and for what cause.
* `package_eq_ok_iff`: in a configuration that has passed the check a name finds its one package.
* `finds_run`: no operation then fails for want of a package, those on a package of one's choice
  apart.
* `checked_config_finds_packages`: all of this for the configurations that texts hold.
-/

namespace Steward.Ci

namespace Config

variable {c : Config} {names before : List String} {name : String}

/-! ## The check -/

/-- The name is the first of the list that also stands before. -/
def FirstRepeated (names : List String) (name : String) : Prop :=
  ∃ before after, names = before ++ name :: after ∧ before.Nodup ∧ name ∈ before

theorem repeated?_go_eq_some_iff (h : before.Nodup) : repeated?.go before names = some name ↔
    ∃ first after, names = first ++ name :: after ∧ (first.reverse ++ before).Nodup ∧
      name ∈ first.reverse ++ before := by
  induction names generalizing before with
  | nil => simp [repeated?.go]
  | cons n names ih =>
    have hnext (first : List String) :
        (n :: first).reverse ++ before = first.reverse ++ n :: before := by simp
    unfold repeated?.go
    split
    · next hn =>
      refine ⟨fun hname => ?_, fun hname => ?_⟩
      · obtain rfl := Option.some.inj hname
        exact ⟨[], names, rfl, h, hn⟩
      · obtain ⟨first, after, hnames, hnodup, -⟩ := hname
        cases first with
        | nil => rw [(List.cons.inj hnames).1]
        | cons m first =>
          obtain ⟨rfl, -⟩ := List.cons.inj hnames
          exact absurd rfl ((List.nodup_append.1 hnodup).2.2 n (by simp) n hn)
    · next hn =>
      rw [ih (List.nodup_cons.2 ⟨hn, h⟩)]
      refine ⟨fun hname => ?_, fun hname => ?_⟩
      · obtain ⟨first, after, rfl, hfirst⟩ := hname
        exact ⟨n :: first, after, rfl, by rwa [hnext]⟩
      · obtain ⟨first, after, hnames, hfirst⟩ := hname
        cases first with
        | nil =>
          obtain ⟨rfl, -⟩ := List.cons.inj hnames
          exact absurd hfirst.2 hn
        | cons m first =>
          obtain ⟨rfl, rfl⟩ := List.cons.inj hnames
          exact ⟨first, after, rfl, by rwa [hnext] at hfirst⟩

theorem repeated?_eq_some_iff : repeated? names = some name ↔ FirstRepeated names name := by
  have hgo : repeated? names = some name ↔ _ := repeated?_go_eq_some_iff List.nodup_nil
  simpa [FirstRepeated] using hgo

/-- The first thing that is wrong with the configuration, in the order in which it is checked. -/
inductive Refused (c : Config) : Fault → Prop
  | noTime : c.stepTimeoutSecs = 0 → Refused c .noTime
  | declaredTwice {name : String} : 0 < c.stepTimeoutSecs → FirstRepeated c.names name →
      Refused c (.declaredTwice name)
  | undeclaredBackend : 0 < c.stepTimeoutSecs → c.names.Nodup → c.backend.package ∉ c.names →
      Refused c (.undeclaredBackend c.backend.package)

theorem check_of_refused {fault : Fault} (h : c.Refused fault) : c.check = .error fault := by
  unfold check
  cases h with
  | noTime h => rw [if_pos h]
  | declaredTwice ht h =>
    rw [if_neg (Nat.pos_iff_ne_zero.1 ht), repeated?_eq_some_iff.2 h]
  | undeclaredBackend ht h hb =>
    rw [if_neg (Nat.pos_iff_ne_zero.1 ht), repeated?_eq_none_iff.2 h]
    exact if_neg hb

/-- A configuration is refused, or passes the check as it is. -/
theorem refused_or_check (c : Config) : (∃ fault, c.Refused fault) ∨
    c.check = .ok c ∧ 0 < c.stepTimeoutSecs ∧ c.names.Nodup ∧ c.backend.package ∈ c.names := by
  rcases Nat.eq_zero_or_pos c.stepTimeoutSecs with ht | ht
  · exact .inl ⟨_, .noTime ht⟩
  cases hr : repeated? c.names with
  | some name => exact .inl ⟨_, .declaredTwice ht (repeated?_eq_some_iff.1 hr)⟩
  | none =>
    have hnodup := repeated?_eq_none_iff.1 hr
    by_cases hb : c.backend.package ∈ c.names
    · refine .inr ⟨?_, ht, hnodup, hb⟩
      unfold check
      rw [if_neg (Nat.pos_iff_ne_zero.1 ht), hr]
      exact if_pos hb
    · exact .inl ⟨_, .undeclaredBackend ht hnodup hb⟩

theorem check_eq_error_iff {fault : Fault} : c.check = .error fault ↔ c.Refused fault := by
  refine ⟨fun h => ?_, check_of_refused⟩
  rcases refused_or_check c with ⟨fault', h'⟩ | ⟨hok, -⟩
  · obtain rfl : fault = fault' := Except.error.inj (h.symm.trans (check_of_refused h'))
    exact h'
  · rw [hok] at h
    cases h

theorem exists_refused_iff : (∃ fault, c.Refused fault) ↔
    c.stepTimeoutSecs = 0 ∨ ¬c.names.Nodup ∨ c.backend.package ∉ c.names := by
  refine ⟨fun h => ?_, fun h => ?_⟩
  · obtain ⟨fault, h⟩ := h
    cases h with
    | noTime h => exact .inl h
    | declaredTwice _ h =>
      refine .inr (.inl fun hnodup => ?_)
      rw [← repeated?_eq_some_iff, repeated?_eq_none_iff.2 hnodup] at h
      cases h
    | undeclaredBackend _ _ h => exact .inr (.inr h)
  · rcases refused_or_check c with hrefused | ⟨-, ht, hnodup, hb⟩
    · exact hrefused
    · rcases h with h | h | h
      · omega
      · exact absurd hnodup h
      · exact absurd hb h

/-- The configuration that a text holds, before it is checked. -/
def decoded? (format : Toml.Format) (text : String) (vars : List (String × String)) :
    Option Config := do
  let document ← format.read? text
  ofToml? (Toml.overlay (Toml.overlay .empty document.fields) (vars.filterMap settingOf))

theorem ofText_of_decoded {format : Toml.Format} {text : String} {vars : List (String × String)}
    (h : decoded? format text vars = some c) : ofText format text vars = c.check := by
  obtain ⟨document, hdocument, hc⟩ := Option.bind_eq_some_iff.1 h
  rw [ofText, hdocument]
  simp only [hc]

/-! ## Looking packages up -/

theorem package_eq_error_iff {fault : Ci.Fault} :
    c.package name = .error fault ↔ fault = .unknownPackage name ∧ name ∉ c.names := by
  unfold package
  cases hp : c.package? name with
  | some p =>
    have hname : name ∈ c.names := by
      refine List.mem_map.2 ⟨p, List.mem_of_find?_eq_some hp, ?_⟩
      simpa using List.find?_some hp
    simp [hname]
  | none =>
    have hname : name ∉ c.names := by
      intro hm
      obtain ⟨p, hm, hpname⟩ := List.mem_map.1 hm
      simpa [hpname] using List.find?_eq_none.1 hp p hm
    simp [hname, eq_comm]

theorem package_eq_ok_iff (h : c.names.Nodup) {p : Package} :
    c.package name = .ok p ↔ p ∈ c.packages ∧ p.name = name := by
  have hfind : c.package? name = some p ↔ p ∈ c.packages ∧ p.name = name :=
    Store.find?_eq_some_iff_of_keyed h fun _ => decide_eq_true_iff
  rw [← hfind, package]
  cases c.package? name <;> simp

theorem backendPackage_ne_error (h : c.backend.package ∈ c.names) (fault : Ci.Fault) :
    c.backendPackage ≠ .error fault := fun hp => (package_eq_error_iff.1 hp).2 h

theorem exists_backendPackage (h : c.names.Nodup) (hb : c.backend.package ∈ c.names) :
    ∃ p ∈ c.packages, p.name = c.backend.package ∧ c.backendPackage = .ok p := by
  cases hp : c.backendPackage with
  | ok p =>
    obtain ⟨hm, hname⟩ := (package_eq_ok_iff h).1 hp
    exact ⟨p, hm, hname, rfl⟩
  | error fault => exact absurd hp (backendPackage_ne_error hb fault)

end Config

/-! ## Operations that find their packages -/

/-- Whether an operation is on a package of one's choice. -/
def Operation.onPackage : Operation → Bool
  | checkPackage | buildPackage | coveragePackage => true
  | check | build | ci | deploy | generatePrisma | buildBackendImage | publishBackendImage
  | smokeTestBackendImage => false

open Steward.Ci.Task

section

variable {σ α β : Type} {e : Executor σ} {c : Config} {o : Order}

/-- Under the executor the task never ends for want of a package. -/
def Task.Finds (e : Executor σ) (t : Task α) : Prop :=
  ∀ state fault, ((ExceptT.run t).run e state).result = .error fault →
    ∀ name, fault ≠ .unknownPackage name

theorem finds_pure (a : α) : Finds e (pure a) := by
  intro state fault h
  rw [run_pure] at h
  cases h

theorem finds_bind {t : Task α} {f : α → Task β} (h : Finds e t) (hf : ∀ a, Finds e (f a)) :
    Finds e (t >>= f) := by
  intro state fault hresult
  rcases ht : (ExceptT.run t).run e state with ⟨fault' | a, steps, next⟩
  · rw [run_bind_of_error ht] at hresult
    obtain rfl := Except.error.inj hresult
    exact h state _ (by rw [ht])
  · rw [run_bind_of_ok ht] at hresult
    exact hf a next fault hresult

theorem finds_ofExcept_bind {r : Except Fault α} {f : α → Task β}
    (hr : ∀ fault, r = .error fault → ∀ name, fault ≠ .unknownPackage name)
    (hf : ∀ a, Finds e (f a)) : Finds e (Task.ofExcept r >>= f) := by
  cases r with
  | ok a => exact hf a
  | error fault' =>
    intro state fault hresult
    obtain rfl : fault' = fault := Except.error.inj hresult
    exact hr _ rfl

theorem finds_backendPackage_bind (hb : c.backend.package ∈ c.names) {f : Package → Task α}
    (hf : ∀ p, Finds e (f p)) : Finds e (Task.ofExcept c.backendPackage >>= f) :=
  finds_ofExcept_bind (fun fault h => absurd h (Config.backendPackage_ne_error hb fault)) hf

theorem finds_both {t : Task α} {u : Task β} (h : Finds e t) (hu : Finds e u) :
    Finds e (t.both u) := by
  intro state fault hresult
  replace hresult : (Job.run e (.both (ExceptT.run t) (ExceptT.run u) .done) state).result =
    .error fault := hresult
  simp only [Job.run, Job.Run.after] at hresult
  split at hresult
  · next fault' ht =>
    obtain rfl := Except.error.inj hresult
    exact h state _ ht
  · cases hsecond : ((ExceptT.run u).run e ((ExceptT.run t).run e state).state).result with
    | error fault' =>
      rw [hsecond] at hresult
      obtain rfl := Except.error.inj hresult
      exact hu _ _ hsecond
    | ok b =>
      rw [hsecond] at hresult
      cases hresult

theorem finds_all {tasks : List (Task α)} (h : ∀ t ∈ tasks, Finds e t) :
    Finds e (Task.all tasks) := by
  induction tasks with
  | nil => exact finds_pure []
  | cons t tasks ih =>
    refine finds_bind (finds_both (h t List.mem_cons_self) ?_) fun _ => finds_pure _
    exact ih fun t' ht => h t' (List.mem_cons_of_mem _ ht)

section

variable (he : ∀ s state fault, (e s state).1 = .error fault →
  ∀ name, fault ≠ .unknownPackage name)
include he

theorem finds_step (s : Step) : Finds e s.run := by
  intro state fault hresult name
  replace hresult : s.judge (e s state).1 = .error fault := hresult
  cases hs : (e s state).1 with
  | error fault' =>
    rw [hs] at hresult
    obtain rfl := Except.error.inj hresult
    exact he s state _ hs name
  | ok out =>
    rw [hs, Step.judge] at hresult
    split at hresult
    · cases hresult
    · obtain rfl := Except.error.inj hresult
      simp [Step.failure]

theorem finds_runSteps (steps : List Step) : Finds e (runSteps steps) := by
  unfold runSteps
  induction steps with
  | nil => exact finds_pure []
  | cons s steps ih =>
    rw [List.mapM_cons]
    exact finds_bind (finds_step he s) fun _ => finds_bind ih fun _ => finds_pure _

theorem finds_runAllStages (stages : List Stage) : Finds e (Stage.runAll stages) := by
  refine finds_all fun t ht => ?_
  obtain ⟨stage, -, rfl⟩ := List.mem_map.1 ht
  exact finds_runSteps he stage.steps

theorem finds_checkAll : Finds e (c.checkAll o) :=
  finds_bind (finds_runAllStages he _) fun _ => finds_pure _

theorem finds_tryImage (ref : String) : Finds e (c.tryImage o ref) := by
  refine finds_bind (finds_step he _) fun out => ?_
  split
  · exact finds_pure ()
  · intro state fault hresult
    obtain rfl : Fault.smokeTest _ _ = fault := Except.error.inj hresult
    simp

theorem finds_publishing (token : Secret) (ref : String) (x : Result) :
    Finds e (do c.publish o token ref; return x) := by
  refine finds_bind ?_ fun _ => finds_pure x
  exact finds_bind (finds_runSteps he _) fun _ => finds_pure ()

variable (hb : c.backend.package ∈ c.names)
include hb

theorem finds_generate : Finds e (c.generate o) := by
  refine finds_backendPackage_bind hb fun p => ?_
  exact finds_bind (finds_runSteps he _) fun _ => finds_pure ()

theorem finds_buildImage : Finds e (c.buildImage o) := by
  refine finds_backendPackage_bind hb fun p => ?_
  exact finds_bind (finds_step he _) fun _ => finds_pure _

theorem finds_runAll : Finds e (c.runAll o) := by
  refine finds_bind (finds_generate he hb) fun _ => ?_
  refine finds_bind (finds_both (finds_checkAll he) (finds_buildImage he hb)) fun x => ?_
  exact finds_bind (finds_tryImage he x.2) fun _ => finds_pure _

/-- Operations that are on no package of one's choice find all packages. -/
theorem finds_run {op : Operation} (h : op.onPackage = false) : Finds e (op.run c o) := by
  have htoken : ∀ fault, o.registryToken op.name = .error fault →
      ∀ name, fault ≠ .unknownPackage name := by
    intro fault hfault name
    unfold Order.registryToken at hfault
    split at hfault
    · cases hfault
    · obtain rfl := Except.error.inj hfault
      simp
  cases op with
  | check => exact finds_bind (finds_checkAll he) fun _ => finds_pure _
  | build =>
    exact finds_bind (finds_bind (finds_runAllStages he _) fun _ => finds_pure _)
      fun _ => finds_pure _
  | ci => exact finds_bind (finds_runAll he hb) fun _ => finds_pure _
  | deploy =>
    refine finds_ofExcept_bind htoken fun token => ?_
    exact finds_bind (finds_runAll he hb) fun _ => finds_publishing he token _ _
  | generatePrisma => exact finds_bind (finds_generate he hb) fun _ => finds_pure _
  | buildBackendImage => exact finds_bind (finds_buildImage he hb) fun _ => finds_pure _
  | publishBackendImage =>
    refine finds_ofExcept_bind htoken fun token => ?_
    exact finds_bind (finds_buildImage he hb) fun ref => finds_publishing he token ref _
  | smokeTestBackendImage =>
    refine finds_bind (finds_buildImage he hb) fun ref => ?_
    exact finds_bind (finds_tryImage he ref) fun _ => finds_pure _
  | checkPackage | buildPackage | coveragePackage => cases h

end

/-- Once its package is found, an operation on a package of one's choice finds all packages. -/
theorem exists_run_eq
    (he : ∀ s state fault, (e s state).1 = .error fault → ∀ name, fault ≠ .unknownPackage name)
    {op : Operation} (h : op.onPackage = true) :
    ∃ f, op.run c o = (Task.ofExcept (op.target c o) >>= f) ∧ ∀ p, Finds e (f p) := by
  have hstage (stage : Stage) (x : Result) : Finds e (do let _ ← stage.run; return x) :=
    finds_bind (finds_runSteps he _) fun _ => finds_pure x
  cases op with
  | checkPackage | buildPackage | coveragePackage => exact ⟨_, rfl, fun p => hstage _ _⟩
  | _ => cases h

end

theorem target_eq_error_iff {c : Config} {o : Order} {op : Operation} {name : String} :
    op.target c o = .error (.unknownPackage name) ↔ o.package = some name ∧ name ∉ c.names := by
  cases ho : o.package with
  | none =>
    have htarget : op.target c o = .error (.missingArgument op.name "package") := by
      rw [Operation.target, Order.packageName, ho]
      rfl
    simp [htarget]
  | some name' =>
    have htarget : op.target c o = c.package name' := by
      rw [Operation.target, Order.packageName, ho]
      rfl
    rw [htarget, Config.package_eq_error_iff]
    simp only [Fault.unknownPackage.injEq, Option.some.injEq]
    exact ⟨fun h => ⟨h.1.symm, h.1 ▸ h.2⟩, fun h => ⟨h.1.symm, h.1 ▸ h.2⟩⟩

/-- An operation fails for want of a package before any step is run, and only where the package of
one's choice is not declared. -/
theorem run_of_undeclared {σ : Type} (e : Executor σ) {c : Config} {o : Order} {op : Operation}
    {name : String} (h : op.onPackage = true) (ho : o.package = some name ∧ name ∉ c.names)
    (state : σ) :
    (ExceptT.run (op.run c o)).run e state = ⟨.error (.unknownPackage name), [], state⟩ := by
  have htarget : op.target c o = .error (.unknownPackage name) := target_eq_error_iff.2 ho
  cases op with
  | checkPackage | buildPackage | coveragePackage =>
    rw [Operation.run, htarget]
    rfl
  | _ => cases h

theorem undeclared_of_run {σ : Type} {e : Executor σ}
    (he : ∀ s state fault, (e s state).1 = .error fault → ∀ name, fault ≠ .unknownPackage name)
    {c : Config} (hb : c.backend.package ∈ c.names) {o : Order} {op : Operation} {name : String}
    {state : σ} (h : ((ExceptT.run (op.run c o)).run e state).result =
      .error (.unknownPackage name)) :
    op.onPackage = true ∧ o.package = some name ∧ name ∉ c.names := by
  cases hop : op.onPackage with
  | false => exact absurd rfl (finds_run he hb hop state _ h name)
  | true =>
    refine ⟨rfl, ?_⟩
    obtain ⟨f, hf, hfinds⟩ := exists_run_eq (o := o) he hop
    rw [hf] at h
    cases htarget : op.target c o with
    | error fault =>
      rw [htarget] at h
      obtain rfl : fault = .unknownPackage name := Except.error.inj h
      exact target_eq_error_iff.1 htarget
    | ok p =>
      rw [htarget] at h
      exact absurd rfl (hfinds p state _ h name)

theorem dryRun_name (c : Config) (o : Order) (op : Operation) :
    dryRun c o op.name = (ExceptT.run (op.run c o)).run .dry () := by
  rw [dryRun, perform, Operation.ofName?_name]

/-- A configuration that is read has its packages: names find the one package of their name, the
backend's is there, and a dry run misses none but one that it is asked for by an undeclared name.
One that can be decoded is refused exactly for what is wrong with it, in the order of the checks. -/
theorem checked_config_finds_packages (format : Toml.Format) (text : String)
    (vars : List (String × String)) :
    (∀ c, Config.ofText format text vars = .ok c →
      c.names.Nodup ∧
      (∀ name p, c.package name = .ok p ↔ p ∈ c.packages ∧ p.name = name) ∧
      (∃ p ∈ c.packages, p.name = c.backend.package ∧ c.backendPackage = .ok p) ∧
      ∀ (o : Order) (op : Operation) (name : String),
        ((dryRun c o op.name).result = .error (.unknownPackage name) ↔
          op ∈ [Operation.checkPackage, .buildPackage, .coveragePackage] ∧
            o.package = some name ∧ ∀ p ∈ c.packages, p.name ≠ name) ∧
        ((dryRun c o op.name).result = .error (.unknownPackage name) →
          (dryRun c o op.name).executed = [])) ∧
    ∀ c, Config.decoded? format text vars = some c →
      (∀ fault, Config.ofText format text vars = .error fault ↔ c.Refused fault) ∧
      ((∃ fault, Config.ofText format text vars = .error fault) ↔
        c.stepTimeoutSecs = 0 ∨ ¬c.names.Nodup ∨ c.backend.package ∉ c.names) := by
  refine ⟨fun c hc => ?_, fun c hc => ?_⟩
  · obtain ⟨-, -, hnodup, hb⟩ := Config.check_eq_ok (Config.ofText_eq_ok hc)
    refine ⟨hnodup, fun name p => Config.package_eq_ok_iff hnodup,
      Config.exists_backendPackage hnodup hb, fun o op name => ?_⟩
    have hop : op ∈ [Operation.checkPackage, .buildPackage, .coveragePackage] ↔
        op.onPackage = true := by
      cases op <;> simp [Operation.onPackage]
    have hname : (∀ p ∈ c.packages, p.name ≠ name) ↔ name ∉ c.names := by
      simp [Config.names]
    rw [hop, hname, dryRun_name]
    have hdry : ∀ s state fault, (Executor.dry s state).1 = .error fault →
        ∀ name, fault ≠ .unknownPackage name := fun s state fault h => by cases h
    refine ⟨⟨undeclared_of_run hdry hb, fun h => ?_⟩, fun h => ?_⟩
    · rw [run_of_undeclared .dry h.1 h.2]
    · obtain ⟨hon, ho⟩ := undeclared_of_run hdry hb h
      rw [run_of_undeclared .dry hon ho]
  · rw [Config.ofText_of_decoded hc]
    refine ⟨fun fault => Config.check_eq_error_iff, ?_⟩
    simp only [Config.check_eq_error_iff]
    exact Config.exists_refused_iff

/-- Two names are declared twice here, and the backend's is not declared. -/
def crowdedText : String :=
  "[[packages]]\nname = 'app'\npath = 'packages/app'\n" ++
  "[[packages]]\nname = 'web'\npath = 'packages/web'\n" ++
  "[[packages]]\nname = 'web'\npath = 'packages/web'\n" ++
  "[[packages]]\nname = 'app'\npath = 'packages/app'\n"

/-- What it holds. -/
def crowdedConfig : Config := { packages := ["app", "web", "web", "app"].map Package.ofName }

theorem checked_config_finds_packages_crowded :
    Config.ofText .toml "" [] = .ok {} ∧
    (dryRun {} { plainOrder with package := some "web" } "check-package").result =
      .error (.unknownPackage "web") ∧
    (dryRun {} { plainOrder with package := some "web" } "check-package").executed = [] ∧
    Config.decoded? .toml crowdedText [] = some crowdedConfig ∧
    Config.ofText .toml crowdedText [] = .error (.declaredTwice "web") := by
  have hplain : Config.ofText .toml "" [] = .ok {} := by decide +kernel
  have hcrowded : Config.decoded? .toml crowdedText [] = some crowdedConfig := by decide +kernel
  obtain ⟨found, -⟩ := checked_config_finds_packages .toml "" []
  obtain ⟨-, -, -, missing⟩ := found {} hplain
  obtain ⟨-, refused⟩ := checked_config_finds_packages .toml crowdedText []
  obtain ⟨hiff, hnone⟩ :=
    missing { plainOrder with package := some "web" } .checkPackage "web"
  have hmissing := hiff.2 ⟨List.mem_cons_self, rfl, by decide⟩
  have hrepeated : Config.FirstRepeated crowdedConfig.names "web" :=
    ⟨["app", "web"], ["app"], rfl, by decide, by decide⟩
  refine ⟨hplain, hmissing, hnone hmissing, hcrowded, ?_⟩
  exact ((refused crowdedConfig hcrowded).1 _).2 (.declaredTwice (by decide) hrepeated)

end Steward.Ci
