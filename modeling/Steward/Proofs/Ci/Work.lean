import Steward.Ci.Operation
import Steward.Proofs.Ci.Alike

/-!
# The steps of operations

`Config.Work` lists the steps that an order may lead to and that keep away from the registry: no
such step opens it or sends an image to it, and none reads anything.

* `Step.command`: what a step runs, in full.
* `Package.commands_checkStage`, `Package.commands_generateStage`, `Backend.command_login`,
  `Backend.command_push` and the like: the commands that are run for packages and images.
* `Operation.plain_run`, `Operation.work_run`: which steps an operation starts that has nothing to
  do with images, or publishes none.
* `Operation.run_deploy`, `Operation.run_publishBackendImage`: one that publishes does other work
  first, and needs a token that is not empty.
-/

namespace Steward.Ci

open Steward.Ci.Task

/-! ## Commands -/

/-- A program with its arguments, where it is run and what it is given there. -/
structure Step.Command where
  program : String
  args : List String
  directory : String
  env : List (String × String) := []
  input : Option Secret := none
deriving DecidableEq

/-- What a step runs. -/
def Step.command (s : Step) : Step.Command :=
  { program := s.program, args := s.args, directory := s.directory, env := s.env, input := s.input }

/-- A command of docker, run where the sources are. -/
def docker (source : String) (args : List String) : Step.Command :=
  { program := "docker", args, directory := source }

/-- A program that is run in the folder of a package. -/
def Package.command (p : Package) (source program : String) (args : List String) : Step.Command :=
  { program, args, directory := Path.join source p.path }

theorem Package.commands_checkStage (p : Package) (source : String) :
    (p.checkStage source).steps.map Step.command =
      p.command source "bun" ["install", "--frozen-lockfile"] ::
        p.checks.map fun script => p.command source "bun" ["run", script] := by
  rw [checkStage, List.map_cons, List.map_map]
  rfl

theorem Package.commands_generateStage (p : Package) (source : String) :
    (p.generateStage source).steps.map Step.command =
      [p.command source "bun" ["install", "--frozen-lockfile"],
        p.command source "bunx" ["prisma", "generate"]] := rfl

namespace Backend

variable (b : Backend) (o : Order) (ref : String)

theorem command_buildImage (p : Package) : ∃ flags, (b.buildImage p o ref).command =
    docker o.source (
      ["build", "-f", Path.join (Path.join o.source p.path) b.dockerfile, "-t", ref] ++
        flags ++ [Path.join o.source p.path]) :=
  ⟨_, congrArg (docker o.source) (congrArg (· ++ _) (List.append_assoc ..))⟩

theorem command_tryImage : (b.tryImage o ref).command =
    docker o.source ("run" :: "--rm" :: ref :: b.smokeCommand) := rfl

theorem command_login (token : Secret) : (b.login o token).command =
    { docker o.source ["login", b.registryHost, "-u", b.registryUser, "--password-stdin"] with
      input := some token } := rfl

theorem command_push : (push o ref).command = docker o.source ["push", ref] := rfl

end Backend

/-- The step is a command of docker. -/
def Step.Docker (command : String) (s : Step) : Prop :=
  s.program = "docker" ∧ s.args.head? = some command

theorem Step.Docker.eq {s : Step} {command command' : String} (h : s.Docker command)
    (h' : s.Docker command') : command = command' := by
  have heq := h.2.symm.trans h'.2
  simpa using heq

namespace Backend

theorem docker_buildImage (b : Backend) (p : Package) (o : Order) (ref : String) :
    (b.buildImage p o ref).Docker "build" := ⟨rfl, rfl⟩

theorem docker_tryImage (b : Backend) (o : Order) (ref : String) :
    (b.tryImage o ref).Docker "run" := ⟨rfl, rfl⟩

theorem docker_login (b : Backend) (o : Order) (token : Secret) :
    (b.login o token).Docker "login" := ⟨rfl, rfl⟩

theorem docker_push (o : Order) (ref : String) : (push o ref).Docker "push" := ⟨rfl, rfl⟩

end Backend

namespace Order

variable {o : Order}

theorem registryToken_of_some {token : Secret} (h : o.token = some token)
    (hne : token.isEmpty = false) (operation : String) : o.registryToken operation = .ok token := by
  simp [registryToken, h, hne, Option.filter]

theorem registryToken_of_none (h : o.token = none ∨ o.token = some ⟨""⟩) (operation : String) :
    o.registryToken operation = .error (.missingArgument operation "registry-token") := by
  rcases h with h | h <;> simp [registryToken, h, Secret.isEmpty, Option.filter]

end Order

/-! ## Steps that keep away from the registry -/

/-- The step works on the sources, with no need of docker. -/
structure Step.Plain (s : Step) : Prop where
  program : s.program ≠ "docker"
  input : s.input = none

/-- The steps that an order may lead to, those of publishing apart. -/
inductive Config.Work (c : Config) (o : Order) : Step → Prop
  | plain {s : Step} : s.Plain → Work c o s
  | build (p : Package) : Work c o (c.backend.buildImage p o (c.imageRef o))
  | trial (ref : String) : Work c o (c.backend.tryImage o ref)

theorem Step.Plain.not_docker {s : Step} (h : s.Plain) (command : String) : ¬s.Docker command :=
  fun hd => h.program hd.1

namespace Package

variable (p : Package) (source : String)

theorem plain_install : (p.install source).Plain := ⟨by simp [install], rfl⟩

theorem plain_script (name : String) : (p.script source name).Plain := ⟨by simp [script], rfl⟩

theorem only_checkStage : Only Step.Plain (p.checkStage source).run := by
  refine only_runSteps fun s hs => ?_
  rcases List.mem_cons.1 hs with rfl | hs
  · exact p.plain_install source
  · obtain ⟨name, _, rfl⟩ := List.mem_map.1 hs
    exact p.plain_script source name

theorem only_buildStage : Only Step.Plain (p.buildStage source).run := by
  refine only_runSteps fun s hs => ?_
  simp only [buildStage, List.mem_cons, List.not_mem_nil, or_false] at hs
  rcases hs with rfl | rfl
  · exact p.plain_install source
  · exact p.plain_script source _

theorem only_coverageStage : Only Step.Plain (p.coverageStage source).run := by
  refine only_runSteps fun s hs => ?_
  simp only [coverageStage, List.mem_cons, List.not_mem_nil, or_false] at hs
  rcases hs with rfl | rfl
  · exact p.plain_install source
  · exact ⟨by simp [measure], rfl⟩

theorem only_generateStage : Only Step.Plain (p.generateStage source).run := by
  refine only_runSteps fun s hs => ?_
  simp only [generateStage, List.mem_cons, List.not_mem_nil, or_false] at hs
  rcases hs with rfl | rfl
  · exact p.plain_install source
  · exact ⟨by simp [generate], rfl⟩

end Package

namespace Config

variable {c : Config} {o : Order} {s : Step}

theorem Work.input (h : c.Work o s) : s.input = none := by
  cases h with
  | plain h => exact h.input
  | build | trial => rfl

theorem Work.command {command : String} (h : c.Work o s) (hd : s.Docker command) :
    command = "build" ∨ command = "run" := by
  cases h with
  | plain h => exact absurd hd (h.not_docker command)
  | build p => exact .inl (hd.eq (Backend.docker_buildImage _ p o _))
  | trial ref => exact .inr (hd.eq (Backend.docker_tryImage _ o ref))

theorem Work.not_login (h : c.Work o s) : ¬s.Docker "login" := fun hd => by
  simpa using h.command hd

theorem Work.not_push (h : c.Work o s) : ¬s.Docker "push" := fun hd => by
  simpa using h.command hd

theorem only_generate (c : Config) (o : Order) : Only Step.Plain (c.generate o) :=
  only_ofExcept_bind fun p _ => only_bind (p.only_generateStage o.source) fun _ => only_pure ()

theorem only_runAllStages {stage : Package → Stage} (h : ∀ p, Only Step.Plain (stage p).run)
    (packages : List Package) : Only Step.Plain (Stage.runAll (packages.map stage)) := by
  refine only_all fun t ht => ?_
  obtain ⟨_, hs, rfl⟩ := List.mem_map.1 ht
  obtain ⟨p, _, rfl⟩ := List.mem_map.1 hs
  exact h p

theorem only_checkAll (c : Config) (o : Order) : Only Step.Plain (c.checkAll o) := by
  refine only_bind (only_runAllStages (fun p => ?_) c.packages) fun _ => only_pure _
  exact p.only_checkStage o.source

theorem only_buildAll (c : Config) (o : Order) : Only Step.Plain (c.buildAll o) := by
  refine only_bind (only_runAllStages (fun p => ?_) c.packages) fun _ => only_pure _
  exact p.only_buildStage o.source

theorem only_buildImage (c : Config) (o : Order) :
    Only (fun s => ∃ p, s = c.backend.buildImage p o (c.imageRef o)) (c.buildImage o) :=
  only_ofExcept_bind fun p _ => only_bind (only_step ⟨p, rfl⟩) fun _ => only_pure _

theorem only_tryImage (c : Config) (o : Order) (ref : String) :
    Only (· = c.backend.tryImage o ref) (c.tryImage o ref) := by
  refine only_bind (only_step rfl) fun out => ?_
  split
  · exact only_pure ()
  · exact .done

theorem work_buildImage (c : Config) (o : Order) : Only (c.Work o) (c.buildImage o) := by
  refine (only_buildImage c o).mono ?_
  rintro _ ⟨p, rfl⟩
  exact .build p

theorem work_tryImage (c : Config) (o : Order) (ref : String) :
    Only (c.Work o) (c.tryImage o ref) := by
  refine (only_tryImage c o ref).mono ?_
  rintro _ rfl
  exact .trial ref

theorem work_runAll (c : Config) (o : Order) : Only (c.Work o) (c.runAll o) := by
  refine only_bind ((only_generate c o).mono fun _ => .plain) fun _ => ?_
  refine only_bind (only_both ((only_checkAll c o).mono fun _ => .plain) (work_buildImage c o))
    fun x => ?_
  exact only_bind (work_tryImage c o x.2) fun _ => only_pure _

end Config

namespace Operation

open Config

variable {c : Config} {o : Order} {token : Secret}

/-- Whether an operation has to do with the backend's image. -/
def handlesImage : Operation → Bool
  | ci | deploy | buildBackendImage | publishBackendImage | smokeTestBackendImage => true
  | check | build | generatePrisma | checkPackage | buildPackage | coveragePackage => false

theorem plain_run {op : Operation} (h : op.handlesImage = false) :
    Only Step.Plain (op.run c o) := by
  cases op with
  | check => exact only_bind (only_checkAll c o) fun _ => only_pure _
  | build => exact only_bind (only_buildAll c o) fun _ => only_pure _
  | generatePrisma => exact only_bind (only_generate c o) fun _ => only_pure _
  | checkPackage =>
    exact only_ofExcept_bind fun p _ => only_bind (p.only_checkStage _) fun _ => only_pure _
  | buildPackage =>
    exact only_ofExcept_bind fun p _ => only_bind (p.only_buildStage _) fun _ => only_pure _
  | coveragePackage =>
    exact only_ofExcept_bind fun p _ => only_bind (p.only_coverageStage _) fun _ => only_pure _
  | ci | deploy | buildBackendImage | publishBackendImage | smokeTestBackendImage => cases h

/-- Operations that publish nothing keep away from the registry. -/
theorem work_run {op : Operation} (hd : op ≠ .deploy) (hp : op ≠ .publishBackendImage) :
    Only (c.Work o) (op.run c o) := by
  cases op with
  | ci => exact only_bind (work_runAll c o) fun _ => only_pure _
  | deploy => exact absurd rfl hd
  | buildBackendImage => exact only_bind (work_buildImage c o) fun _ => only_pure _
  | publishBackendImage => exact absurd rfl hp
  | smokeTestBackendImage =>
    refine only_bind (work_buildImage c o) fun ref => ?_
    exact only_bind (work_tryImage c o ref) fun _ => only_pure _
  | check | build | generatePrisma | checkPackage | buildPackage | coveragePackage =>
    exact (plain_run rfl).mono fun _ => .plain

/-! ## Operations that publish -/

theorem run_deploy (h : o.token = some token) (hne : token.isEmpty = false) :
    Operation.run c o .deploy = (do
      let _ ← c.runAll o
      c.publish o token (c.imageRef o)
      return .image (c.imageRef o)) := by
  rw [Operation.run, Order.registryToken_of_some h hne]
  rfl

theorem run_publishBackendImage (h : o.token = some token) (hne : token.isEmpty = false) :
    Operation.run c o .publishBackendImage = (do
      let ref ← c.buildImage o
      c.publish o token ref
      return .image ref) := by
  rw [Operation.run, Order.registryToken_of_some h hne]
  rfl

end Operation

end Steward.Ci
