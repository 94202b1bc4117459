import Steward.Proofs.Ci.Token

/-!
# Versions and commits that are empty

An empty version is no tag, and an empty commit none either: images are named as if nothing had been
said. The build of an image is told of both all the same.

* `besides_run`: orders that name images alike lead to the same work, builds of images apart.
* `empty_shows_in_builds`: what a dry run lists with an empty version or commit, and when that is
  what it lists without one.
-/

namespace Steward.Ci

open Steward.Ci.Task

/-- The second step is the first, but that a build of an image is told more words. -/
inductive Step.Besides (words : List String) : Step → Step → Prop
  | same {s : Step} : ¬s.Docker "build" → Besides words s s
  | build {s s' : Step} {front back : List String} : s.Docker "build" → s.args = front ++ back →
      s' = { s with args := front ++ words ++ back } → Besides words s s'

namespace Step.Besides

variable {words : List String} {s s' : Step} {steps steps' : List Step}

theorem name (h : s.Besides words s') : s.name = s'.name := by
  cases h with
  | same => rfl
  | build _ _ hs' => rw [hs']

theorem eq (h : s.Besides words s') (hs : ¬s.Docker "build") : s' = s := by
  cases h with
  | same => rfl
  | build hd => exact absurd hd hs

theorem not_docker (h : s.Besides words s) (hw : words ≠ []) : ¬s.Docker "build" := by
  cases h with
  | same h => exact h
  | @build _ front back _ hargs hs' =>
    have hlength : s.args.length = (front ++ words ++ back).length := congrArg (·.args.length) hs'
    have hpos := List.length_pos_iff.2 hw
    simp only [hargs, List.length_append] at hlength
    omega

/-- The lists of steps agree if no image is built. -/
theorem eq_iff (h : List.Forall₂ (Step.Besides words) steps steps') (hw : words ≠ []) :
    steps' = steps ↔ ∀ s ∈ steps, ¬s.Docker "build" := by
  refine ⟨fun heq s hs => ?_, fun hnone => ?_⟩
  · subst heq
    exact (List.forall₂_same.1 h s hs).not_docker hw
  · induction h with
    | nil => rfl
    | cons hs _ ih =>
      rw [hs.eq (hnone _ List.mem_cons_self), ih fun s hm => hnone s (List.mem_cons_of_mem _ hm)]

end Step.Besides

/-! ## Work on two orders -/

/-- The order with another version and another commit. -/
def Order.told (o : Order) (version commit : Option String) : Order := { o with version, commit }

variable {c : Config} {o : Order} {words : List String} {v v' sha sha' : Option String}

/-- Steps that build no image are the same in both. -/
theorem Task.Only.besides {α : Type} {P : Step → Prop} {t : Task α} (h : Only P t)
    (hp : ∀ s, P s → ¬s.Docker "build") : Alike (Step.Besides words) t t :=
  h.alike fun s hs => .same (hp s hs)

theorem Step.Docker.not_build {s : Step} {command : String} (h : s.Docker command)
    (hne : command ≠ "build") : ¬s.Docker "build" := fun hd => hne (h.eq hd)

theorem besides_tryImage (ref : String) :
    Alike (Step.Besides words) (c.tryImage (o.told v sha) ref)
      (c.tryImage (o.told v' sha') ref) := by
  refine (Config.only_tryImage c (o.told v sha) ref).besides fun s hs => ?_
  subst hs
  exact (Backend.docker_tryImage c.backend _ ref).not_build (by decide)

theorem besides_publish (token : Secret) (ref : String) :
    Alike (Step.Besides words) (c.publish (o.told v sha) token ref)
      (c.publish (o.told v' sha') token ref) := by
  have hstage : Only (fun s => ¬s.Docker "build")
      (c.backend.publishStage (o.told v sha) token ref).run := by
    refine only_runSteps fun s hs => ?_
    simp only [Backend.publishStage, List.mem_cons, List.not_mem_nil, or_false] at hs
    rcases hs with rfl | rfl
    · exact (Backend.docker_login c.backend _ token).not_build (by decide)
    · exact (Backend.docker_push _ ref).not_build (by decide)
  exact alike_bind (hstage.besides fun _ hs => hs) fun _ => .done

section

variable (htag : (o.told v sha).imageTag = (o.told v' sha').imageTag)
  (hbuild : ∀ p ref, (c.backend.buildImage p (o.told v sha) ref).Besides words
    (c.backend.buildImage p (o.told v' sha') ref))
include htag

theorem imageRef_told : c.imageRef (o.told v sha) = c.imageRef (o.told v' sha') :=
  congrArg c.backend.imageRef htag

include hbuild

theorem besides_buildImage :
    Alike (Step.Besides words) (c.buildImage (o.told v sha)) (c.buildImage (o.told v' sha')) := by
  unfold Config.buildImage
  rw [imageRef_told htag]
  refine alike_ofExcept_bind fun p _ => ?_
  exact alike_bind (alike_step (hbuild p _) (hbuild p _).name) fun _ => .done

theorem besides_runAll :
    Alike (Step.Besides words) (c.runAll (o.told v sha)) (c.runAll (o.told v' sha')) := by
  refine alike_bind ((Config.only_generate c _).besides fun _ hs => hs.not_docker _) fun _ => ?_
  refine alike_bind (alike_both ?_ (besides_buildImage htag hbuild)) fun x => ?_
  · exact (Config.only_checkAll c (o.told v sha)).besides fun _ hs => hs.not_docker _
  · exact alike_bind (besides_tryImage x.2) fun _ => .done

/-- Orders that name images alike lead to the same work, builds of images apart. -/
theorem besides_run (op : Operation) :
    Alike (Step.Besides words) (op.run c (o.told v sha)) (op.run c (o.told v' sha')) := by
  have href : c.imageRef (o.told v sha) = c.imageRef (o.told v' sha') := imageRef_told htag
  have hpublish (token : Secret) (ref : String) (x : Result) : Alike (Step.Besides words)
      (do c.publish (o.told v sha) token ref; return x)
      (do c.publish (o.told v' sha') token ref; return x) :=
    alike_bind (besides_publish token ref) fun _ => .done
  cases op with
  | ci => exact alike_bind (besides_runAll htag hbuild) fun _ => .done
  | deploy =>
    refine alike_ofExcept_bind fun token _ => ?_
    refine alike_bind (besides_runAll htag hbuild) fun _ => ?_
    rw [href]
    exact hpublish token _ _
  | buildBackendImage => exact alike_bind (besides_buildImage htag hbuild) fun _ => .done
  | publishBackendImage =>
    refine alike_ofExcept_bind fun token _ => ?_
    exact alike_bind (besides_buildImage htag hbuild) fun ref => hpublish token ref _
  | smokeTestBackendImage =>
    refine alike_bind (besides_buildImage htag hbuild) fun ref => ?_
    exact alike_bind (besides_tryImage ref) fun _ => .done
  | check | build | generatePrisma | checkPackage | buildPackage | coveragePackage =>
    exact (Operation.plain_run rfl).besides fun _ hs => hs.not_docker _

end

/-! ## Empty versions and commits -/

theorem imageTag_of_empty_version (o : Order) (sha : Option String) :
    (o.told none sha).imageTag = (o.told (some "") sha).imageTag := by
  simp [Order.imageTag, Order.told, Option.filter]

theorem imageTag_of_empty_commit (o : Order) (v : Option String) :
    (o.told v none).imageTag = (o.told v (some "")).imageTag := by
  simp [Order.imageTag, Order.told, Option.filter]

/-- The second run ends like the first. It lists the same steps, but that builds of images are told
more words; so it lists the very same where no image is built. -/
structure Job.Run.Besides (words : List String) (r r' : Job.Run Unit (Except Fault Result)) :
    Prop where
  result : r'.result = r.result
  executed : List.Forall₂ (Step.Besides words) r.executed r'.executed
  executed_eq_iff : r'.executed = r.executed ↔ ∀ s ∈ r.executed, ¬s.Docker "build"

theorem besides_dryRun (hw : words ≠ [])
    (htag : (o.told v sha).imageTag = (o.told v' sha').imageTag)
    (hbuild : ∀ p ref, (c.backend.buildImage p (o.told v sha) ref).Besides words
      (c.backend.buildImage p (o.told v' sha') ref)) (name : String) :
    (dryRun c (o.told v sha) name).Besides words (dryRun c (o.told v' sha') name) := by
  have halike : Alike (Step.Besides words) (perform c (o.told v sha) name)
      (perform c (o.told v' sha') name) := by
    unfold perform
    cases Operation.ofName? name with
    | none => exact .done
    | some op => exact besides_run htag hbuild op
  obtain ⟨hresult, hexecuted, -⟩ :=
    Job.Alike.run halike (e := Executor.dry) (fun _ _ _ _ => rfl) ()
  exact ⟨hresult.symm, hexecuted, Step.Besides.eq_iff hexecuted hw⟩

/-- What the build of an image is told of a version. -/
def versionWords : Option String → List String
  | some version => ["--build-arg", "VERSION=" ++ version]
  | none => []

/-- What the build of an image is told of a commit. -/
def commitWords : Option String → List String
  | some commit => ["--build-arg", "GIT_SHA=" ++ commit, "--label",
      "org.opencontainers.image.revision=" ++ commit]
  | none => []

section

variable (b : Backend) (p : Package) (o : Order) (v sha : Option String) (ref : String)

theorem args_buildImage : (b.buildImage p (o.told v sha) ref).args =
    ["build", "-f", Path.join (p.directory o.source) b.dockerfile, "-t", ref] ++ versionWords v ++
      commitWords sha ++ [p.directory o.source] := by
  cases v <;> cases sha <;> rfl

theorem besides_version : (b.buildImage p (o.told none sha) ref).Besides (versionWords (some ""))
    (b.buildImage p (o.told (some "") sha) ref) := by
  have hargs := args_buildImage b p o none sha ref
  rw [versionWords, List.append_nil, List.append_assoc] at hargs
  refine .build (Backend.docker_buildImage ..) hargs ?_
  rw [← List.append_assoc, ← args_buildImage]
  rfl

theorem besides_commit : (b.buildImage p (o.told v none) ref).Besides (commitWords (some ""))
    (b.buildImage p (o.told v (some "")) ref) := by
  have hargs := args_buildImage b p o v none ref
  rw [commitWords, List.append_nil] at hargs
  refine .build (Backend.docker_buildImage ..) hargs ?_
  rw [← args_buildImage]
  rfl

end

/-- An operation that is given an empty version, or an empty commit, ends as without one, but builds
of images are told of it. -/
theorem empty_shows_in_builds (c : Config) (o : Order) (name : String) :
    (dryRun c { o with version := none } name).Besides ["--build-arg", "VERSION="]
        (dryRun c { o with version := some "" } name) ∧
      (dryRun c { o with commit := none } name).Besides
        ["--build-arg", "GIT_SHA=", "--label", "org.opencontainers.image.revision="]
        (dryRun c { o with commit := some "" } name) := by
  have hversion := besides_dryRun (List.cons_ne_nil _ _) (imageTag_of_empty_version o o.commit)
    (fun p ref => besides_version c.backend p o o.commit ref) name
  have hcommit := besides_dryRun (List.cons_ne_nil _ _) (imageTag_of_empty_commit o o.version)
    (fun p ref => besides_commit c.backend p o o.version ref) name
  exact ⟨hversion, hcommit⟩

/-- Neither is left out of the steps. -/
theorem empty_not_absent :
    (dryRun {} { plainOrder with version := some "" } "build-backend-image").executed ≠
        (dryRun {} { plainOrder with version := none } "build-backend-image").executed ∧
      (dryRun {} { plainOrder with commit := some "" } "build-backend-image").executed ≠
        (dryRun {} { plainOrder with commit := none } "build-backend-image").executed := by
  decide +kernel

end Steward.Ci
