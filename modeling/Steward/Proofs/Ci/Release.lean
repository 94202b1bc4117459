import Steward.Proofs.Ci.Token

/-!
# What is published has been vetted

`Vetted` says what has gone well before an image may be published: the client was generated, every
package was checked while the image was built, and the image was tried. All events count that may be
seen while an operation runs, whatever becomes of its steps and in whatever order those at once
come. The commands of docker and of the packages are written out.

* `vetted_of_runAll`: what runs before a deployment ends well only after all of that.
* `vetted_of_publishes`, `happens_ci_of_unpublished`: a deployment starts a step that publishes only
  after all of that, and is otherwise `ci`.
* `exists_published_of_deploy`: a deployment that ends well ends with the login and the push.
* `regards_run`, `image_of_run`: all docker commands of an operation are about one image, and so is
  what it results in.
* `executed_bind`: the steps that a dry run lists beyond those of the work before.
* `publishes_what_passed`: all of this in one.
-/

namespace Steward.Ci

open Steward.Ci.Task

variable {c : Config} {o : Order} {token : Secret} {log : List Event}

/-! ## What goes before -/

/-- Steps that run these commands were run one after the other, and all of them have passed. -/
def PassedCommands (commands : List Step.Command) (log : List Event) : Prop :=
  ∃ steps, steps.map Step.command = commands ∧ Passed steps log

/-- The client was generated, then every package was checked and the image was built, then the image
was tried, and all of it has passed. -/
structure Vetted (c : Config) (o : Order) (p : Package) (generation work trial : List Event) :
    Prop where
  backend : c.backendPackage = .ok p
  generated : PassedCommands
    [p.command o.source "bun" ["install", "--frozen-lockfile"],
      p.command o.source "bunx" ["prisma", "generate"]] generation
  checked : ∀ q ∈ c.packages, ∃ own, own.Sublist work ∧ PassedCommands
    (q.command o.source "bun" ["install", "--frozen-lockfile"] ::
      q.checks.map fun script => q.command o.source "bun" ["run", script]) own
  built : ∃ own flags, own.Sublist work ∧ PassedCommands
    [docker o.source (["build", "-f", Path.join (Path.join o.source p.path) c.backend.dockerfile,
      "-t", c.imageRef o] ++ flags ++ [Path.join o.source p.path])] own
  tried : ∃ s out, trial = [.started s, .ended s (.ok out)] ∧
    s.command = docker o.source ("run" :: "--rm" :: c.imageRef o :: c.backend.smokeCommand) ∧
    out.passed = true ∧ Text.contains c.backend.smokeExpect.toList out.out.toList = true

theorem happens_generate_ok {u : Unit} (h : Happens (c.generate o) log (some (.ok u))) :
    ∃ p, c.backendPackage = .ok p ∧ PassedCommands
      [p.command o.source "bun" ["install", "--frozen-lockfile"],
        p.command o.source "bunx" ["prisma", "generate"]] log := by
  obtain ⟨p, first, rest, hp, hrest, rfl⟩ := happens_bind_ok h
  obtain ⟨outs, stage, last, hstage, hlast, rfl⟩ := happens_bind_ok hrest
  obtain ⟨rfl, hok⟩ := happens_ofExcept hp
  obtain ⟨rfl, -⟩ := happens_pure hlast
  rw [List.append_nil]
  exact ⟨p, hok.symm, _, p.commands_generateStage o.source, happens_runSteps_ok hstage⟩

theorem happens_checkAll_ok {n : Nat} (h : Happens (c.checkAll o) log (some (.ok n)))
    {q : Package} (hq : q ∈ c.packages) : ∃ own, own.Sublist log ∧ PassedCommands
      (q.command o.source "bun" ["install", "--frozen-lockfile"] ::
        q.checks.map fun script => q.command o.source "bun" ["run", script]) own := by
  obtain ⟨outs, first, rest, hfirst, hrest, rfl⟩ := happens_bind_ok h
  obtain ⟨rfl, -⟩ := happens_pure hrest
  have hmem : (q.checkStage o.source).run ∈
      (c.packages.map (·.checkStage o.source)).map Stage.run :=
    List.mem_map_of_mem (List.mem_map_of_mem hq)
  obtain ⟨a, own, hown, hsub⟩ := happens_all_ok hfirst hmem
  rw [List.append_nil]
  exact ⟨own, hsub, _, q.commands_checkStage o.source, happens_runSteps_ok hown⟩

theorem happens_buildImage_ok {ref : String}
    (h : Happens (c.buildImage o) log (some (.ok ref))) : ref = c.imageRef o ∧
      ∃ p flags, c.backendPackage = .ok p ∧ PassedCommands
        [docker o.source (["build", "-f",
          Path.join (Path.join o.source p.path) c.backend.dockerfile, "-t", c.imageRef o] ++
            flags ++ [Path.join o.source p.path])] log := by
  obtain ⟨p, first, rest, hp, hrest, rfl⟩ := happens_bind_ok h
  obtain ⟨out, step, last, hstep, hlast, rfl⟩ := happens_bind_ok hrest
  obtain ⟨rfl, hok⟩ := happens_ofExcept hp
  obtain ⟨rfl, hx⟩ := happens_pure hlast
  obtain ⟨rfl, hpassed⟩ := happens_step_ok hstep
  have href : ref = c.imageRef o := by simpa using hx
  obtain ⟨flags, hcommand⟩ := c.backend.command_buildImage o (c.imageRef o) p
  rw [List.append_nil]
  exact ⟨href, p, flags, hok.symm, [_], congrArg (fun command => [command]) hcommand,
    .cons hpassed .nil⟩

theorem happens_tryImage_ok {ref : String} {u : Unit}
    (h : Happens (c.tryImage o ref) log (some (.ok u))) :
    ∃ s out, log = [.started s, .ended s (.ok out)] ∧
      s.command = docker o.source ("run" :: "--rm" :: ref :: c.backend.smokeCommand) ∧
      out.passed = true ∧
      Text.contains c.backend.smokeExpect.toList out.out.toList = true := by
  obtain ⟨out, first, rest, hfirst, hrest, rfl⟩ := happens_bind_ok h
  obtain ⟨rfl, hpassed⟩ := happens_step_ok hfirst
  split at hrest
  · next hcontains =>
    obtain ⟨rfl, -⟩ := happens_pure hrest
    exact ⟨_, out, rfl, c.backend.command_tryImage o ref, hpassed, hcontains⟩
  · cases hrest

/-- What runs before a deployment ends well only after everything has passed. -/
theorem vetted_of_runAll {x : Nat × String} (h : Happens (c.runAll o) log (some (.ok x))) :
    ∃ p generation work trial,
      log = generation ++ work ++ trial ∧ Vetted c o p generation work trial := by
  obtain ⟨u, generation, rest, hgeneration, hrest, rfl⟩ := happens_bind_ok h
  obtain ⟨⟨n, ref⟩, work, more, hwork, hmore, rfl⟩ := happens_bind_ok hrest
  obtain ⟨u', trial, last, htrial, hlast, rfl⟩ := happens_bind_ok hmore
  obtain ⟨rfl, -⟩ := happens_pure hlast
  obtain ⟨checks, build, hchecks, hbuild, hshuffle⟩ := happens_both_ok hwork
  obtain ⟨p, hp, hgenerated⟩ := happens_generate_ok hgeneration
  obtain ⟨rfl, p', flags, hp', hbuilt⟩ := happens_buildImage_ok hbuild
  obtain rfl : p = p' := by simpa [hp] using hp'
  refine ⟨p, generation, work, trial, by simp, hp, hgenerated, fun q hq => ?_, ?_, ?_⟩
  · obtain ⟨own, hsub, hown⟩ := happens_checkAll_ok hchecks hq
    exact ⟨own, hsub.trans hshuffle.sublist_left, hown⟩
  · exact ⟨build, flags, hshuffle.sublist_right, hbuilt⟩
  · exact happens_tryImage_ok htrial

/-! ## What publishes -/

/-- The step opens the registry or sends an image to it. -/
def Step.Publishes (s : Step) : Prop := s.Docker "login" ∨ s.Docker "push"

theorem Config.Work.not_publishes {s : Step} (h : c.Work o s) : ¬s.Publishes := by
  rintro (hd | hd)
  · exact h.not_login hd
  · exact h.not_push hd

/-- Of publishing nothing is seen before the registry is opened. -/
theorem happens_publish_bind {α : Type} {f : Unit → Task α} {ref : String}
    {r : Option (Except Fault α)} (h : Happens (c.publish o token ref >>= f) log r) :
    (log = [] ∧ r = none) ∨ .started (c.backend.login o token) ∈ log := by
  obtain ⟨next, hnext⟩ : ∃ next, ExceptT.run (c.publish o token ref >>= f) =
      Job.step (c.backend.login o token) next := ⟨_, rfl⟩
  rw [Happens, hnext] at h
  cases h with
  | cut => exact .inl ⟨rfl, rfl⟩
  | started | step => exact .inr List.mem_cons_self

/-- A deployment is under way with what goes before, has failed in it, or has begun to publish. -/
theorem happens_deploy (h : o.token = some token) (hne : token.isEmpty = false)
    {r : Option (Except Fault Result)} (hd : Happens (Operation.run c o .deploy) log r) :
    (Happens (c.runAll o) log none ∧ r = none) ∨
      (∃ e, Happens (c.runAll o) log (some (.error e)) ∧ r = some (.error e)) ∨
      ∃ x first rest, Happens (c.runAll o) first (some (.ok x)) ∧
        Happens (do c.publish o token (c.imageRef o); return .image (c.imageRef o)) rest r ∧
        log = first ++ rest := by
  rw [Operation.run_deploy h hne] at hd
  exact happens_bind.1 hd

theorem happens_ci_none (h : Happens (c.runAll o) log none) :
    Happens (Operation.run c o .ci) log none := happens_bind.2 (.inl ⟨h, rfl⟩)

theorem happens_ci_error {e : Fault} (h : Happens (c.runAll o) log (some (.error e))) :
    Happens (Operation.run c o .ci) log (some (.error e)) :=
  happens_bind.2 (.inr (.inl ⟨e, h, rfl⟩))

/-- An event that is not in the first part of a list comes after all of that part. -/
theorem isPrefix_of_not_mem {τ : Type} {first rest before after : List τ} {a : τ}
    (h : first ++ rest = before ++ a :: after) (ha : a ∉ first) : first <+: before := by
  rcases List.append_eq_append_iff.1 h with ⟨u, rfl, -⟩ | ⟨u, rfl, hu⟩
  · exact List.prefix_append first u
  · cases u with
    | nil => simp
    | cons b u =>
      obtain ⟨rfl, -⟩ := List.cons.inj hu
      exact absurd (List.mem_append_right before List.mem_cons_self) ha

/-- Before a step that publishes is started, everything has passed. -/
theorem vetted_of_publishes (h : o.token = some token) (hne : token.isEmpty = false)
    {r : Option (Except Fault Result)} (hd : Happens (Operation.run c o .deploy) log r)
    {before after : List Event} {s : Step} (hlog : log = before ++ .started s :: after)
    (hs : s.Publishes) : ∃ p generation work trial,
      generation ++ work ++ trial <+: before ∧ Vetted c o p generation work trial := by
  have hmem : .started s ∈ log := by simp [hlog]
  rcases happens_deploy h hne hd with ⟨hrun, -⟩ | ⟨e, hrun, -⟩ | ⟨x, first, rest, hrun, -, hsplit⟩
  · exact absurd hs ((Config.work_runAll c o).started hrun hmem).not_publishes
  · exact absurd hs ((Config.work_runAll c o).started hrun hmem).not_publishes
  · -- The step is none of the work before, so all of that work stands before it.
    have hnot : .started s ∉ first := fun hfirst =>
      ((Config.work_runAll c o).started hrun hfirst).not_publishes hs
    obtain ⟨p, generation, work, trial, rfl, hv⟩ := vetted_of_runAll hrun
    exact ⟨p, generation, work, trial, isPrefix_of_not_mem (hsplit.symm.trans hlog) hnot, hv⟩

/-- A deployment in which no such step is started is `ci`, and fails if it ends. -/
theorem happens_ci_of_unpublished (h : o.token = some token) (hne : token.isEmpty = false)
    {r : Option (Except Fault Result)} (hd : Happens (Operation.run c o .deploy) log r)
    (hnone : ∀ s, .started s ∈ log → ¬s.Publishes) :
    Happens (Operation.run c o .ci) log none ∧
      ∀ x, r = some x →
        ∃ e, x = .error e ∧ Happens (Operation.run c o .ci) log (some (.error e)) := by
  rcases happens_deploy h hne hd with ⟨hrun, rfl⟩ | ⟨e, hrun, rfl⟩ | ⟨x, first, rest, hrun, hp, rfl⟩
  · exact ⟨happens_ci_none hrun, fun x hx => by cases hx⟩
  · refine ⟨happens_ci_none hrun.unfinished, fun x hx => ?_⟩
    obtain rfl := Option.some.inj hx
    exact ⟨e, rfl, happens_ci_error hrun⟩
  · rcases happens_publish_bind hp with ⟨rfl, rfl⟩ | hlogin
    · rw [List.append_nil]
      exact ⟨happens_ci_none hrun.unfinished, fun x hx => by cases hx⟩
    · refine absurd ?_ (hnone _ (List.mem_append_right first hlogin))
      exact .inl (Backend.docker_login c.backend o token)

/-- A deployment that ends well ends with the login and the push, and both have passed. -/
theorem exists_published_of_deploy (h : o.token = some token) (hne : token.isEmpty = false)
    {x : Result} (hd : Happens (Operation.run c o .deploy) log (some (.ok x))) :
    ∃ first last, log = first ++ last ∧
      Passed [c.backend.login o token, Backend.push o (c.imageRef o)] last := by
  rw [Operation.run_deploy h hne] at hd
  obtain ⟨_, first, rest, -, hrest, rfl⟩ := happens_bind_ok hd
  obtain ⟨_, publishing, more, hpublishing, hmore, rfl⟩ := happens_bind_ok hrest
  obtain ⟨outs, last, done, hlast, hdone, rfl⟩ := happens_bind_ok hpublishing
  obtain ⟨rfl, -⟩ := happens_pure hmore
  obtain ⟨rfl, -⟩ := happens_pure hdone
  refine ⟨first, last, by simp, happens_runSteps_ok hlast⟩

/-! ## One image -/

theorem takeWhile_append_of_nil {τ : Type} {p : τ → Bool} {rest : List τ}
    (h : rest.takeWhile p = []) (text : List τ) :
    (text ++ rest).takeWhile p = text.takeWhile p := by
  induction text with
  | nil => exact h
  | cons c text ih => rw [List.cons_append, List.takeWhile_cons, List.takeWhile_cons, ih]

/-- Slashes at the end of the registry are left out of references, and are no part of its host. -/
theorem Backend.head?_imageRef (b : Backend) (tag : String) :
    (Text.splitOn '/' (b.imageRef tag).toList).head? = some b.registryHost.toList := by
  obtain ⟨slashes, hregistry, hslashes⟩ :=
    Text.exists_trimEndBy_append (· = '/') b.registry.toList
  have hnil : slashes.takeWhile (· ≠ '/') = [] := by
    cases slashes with
    | nil => rfl
    | cons x rest =>
      have hx : x = '/' := by simpa using hslashes x List.mem_cons_self
      simp [hx]
  have himage : (b.imageRef tag).toList =
      Text.trimEndBy (· = '/') b.registry.toList ++ '/' :: (b.image ++ ":" ++ tag).toList := by
    simp [imageRef]
  have hhost : b.registry.toList.takeWhile (· ≠ '/') =
      (Text.trimEndBy (· = '/') b.registry.toList).takeWhile (· ≠ '/') := by
    conv_lhs => rw [hregistry]
    exact takeWhile_append_of_nil hnil _
  rw [Text.head?_splitOn, himage, takeWhile_append_of_nil (by simp), ← hhost, registryHost,
    String.toList_ofList]

/-- The step is no command of docker, or it builds, runs or sends the image of a reference, or opens
the host that the reference begins with. -/
inductive Step.Regards (ref : String) (s : Step) : Prop
  | other (h : s.program ≠ "docker")
  | build {file : String} {rest : List String}
      (h : s.args = "build" :: "-f" :: file :: "-t" :: ref :: rest)
  | trial {command : List String} (h : s.args = "run" :: "--rm" :: ref :: command)
  | login {host : String} {rest : List String} (h : s.args = "login" :: host :: rest)
      (hhost : (Text.splitOn '/' ref.toList).head? = some host.toList)
  | push (h : s.args = ["push", ref])

theorem only_regards_buildImage (c : Config) (o : Order) :
    Only (Step.Regards (c.imageRef o)) (c.buildImage o) := by
  refine (Config.only_buildImage c o).mono ?_
  rintro _ ⟨p, rfl⟩
  obtain ⟨flags, hcommand⟩ := c.backend.command_buildImage o (c.imageRef o) p
  exact .build (congrArg Step.Command.args hcommand)

theorem only_regards_tryImage (c : Config) (o : Order) :
    Only (Step.Regards (c.imageRef o)) (c.tryImage o (c.imageRef o)) := by
  refine (Config.only_tryImage c o _).mono ?_
  rintro _ rfl
  exact .trial rfl

theorem regards_runAll (c : Config) (o : Order) :
    Starts (Step.Regards (c.imageRef o)) (c.runAll o) := by
  have hplain : ∀ s : Step, s.Plain → s.Regards (c.imageRef o) := fun s hs => .other hs.program
  have hgenerate := ((Config.only_generate c o).mono hplain).started
  have hcheck := (Config.only_checkAll c o).mono hplain
  have hbuild := only_regards_buildImage c o
  refine starts_bind hgenerate fun _ _ _ => ?_
  refine starts_bind (only_both hcheck hbuild).started fun x log hx => ?_
  -- The image that is tried is the one that was built: its reference is the result of the build.
  obtain ⟨_, build, _, hbuilt, _⟩ := happens_both_ok hx
  obtain ⟨href, -⟩ := happens_buildImage_ok hbuilt
  have htry : Only (Step.Regards (c.imageRef o)) (c.tryImage o x.2) := by
    rw [href]
    exact only_regards_tryImage c o
  exact (only_bind htry fun _ => only_pure _).started

theorem only_regards_publish (c : Config) (o : Order) (token : Secret) :
    Only (Step.Regards (c.imageRef o)) (c.publish o token (c.imageRef o)) := by
  refine only_bind (only_runSteps fun s hs => ?_) fun _ => only_pure ()
  simp only [Backend.publishStage, List.mem_cons, List.not_mem_nil, or_false] at hs
  rcases hs with rfl | rfl
  · exact .login rfl (c.backend.head?_imageRef o.imageTag)
  · exact .push rfl

theorem regards_publishing (c : Config) (o : Order) (token : Secret) (x : Result) :
    Starts (Step.Regards (c.imageRef o)) (do c.publish o token (c.imageRef o); return x) :=
  (only_bind (only_regards_publish c o token) fun _ => only_pure _).started

/-- All commands of docker in an operation are about one image. -/
theorem regards_run (h : o.token = some token) (hne : token.isEmpty = false) (op : Operation) :
    Starts (Step.Regards (c.imageRef o)) (op.run c o) := by
  have hbuild : Starts (Step.Regards (c.imageRef o)) (c.buildImage o) :=
    (only_regards_buildImage c o).started
  cases op with
  | ci => exact starts_bind (regards_runAll c o) fun _ _ _ => (only_pure _).started
  | deploy =>
    rw [Operation.run_deploy h hne]
    exact starts_bind (regards_runAll c o) fun _ _ _ => regards_publishing c o token _
  | buildBackendImage => exact starts_bind hbuild fun _ _ _ => (only_pure _).started
  | publishBackendImage =>
    rw [Operation.run_publishBackendImage h hne]
    refine starts_bind hbuild fun ref log hbuilt => ?_
    obtain ⟨rfl, -⟩ := happens_buildImage_ok hbuilt
    exact regards_publishing c o token _
  | smokeTestBackendImage =>
    refine starts_bind hbuild fun ref log hbuilt => ?_
    obtain ⟨rfl, -⟩ := happens_buildImage_ok hbuilt
    exact (only_bind (only_regards_tryImage c o) fun _ => only_pure _).started
  | check | build | generatePrisma | checkPackage | buildPackage | coveragePackage =>
    exact ((Operation.plain_run rfl).mono fun s hs => .other hs.program).started

/-- What an operation results in that builds an image or publishes it. -/
theorem image_of_run {op : Operation}
    (hop : op = .deploy ∨ op = .publishBackendImage ∨ op = .buildBackendImage)
    (h : o.token = some token) (hne : token.isEmpty = false) {x : Result}
    (hd : Happens (op.run c o) log (some (.ok x))) : x = .image (c.imageRef o) := by
  have hpublished {more : List Event} (hm : Happens (do
      c.publish o token (c.imageRef o)
      return Result.image (c.imageRef o)) more (some (.ok x))) : x = .image (c.imageRef o) := by
    obtain ⟨_, _, _, _, hlast, _⟩ := happens_bind_ok hm
    obtain ⟨-, hx⟩ := happens_pure hlast
    simpa using hx
  rcases hop with rfl | rfl | rfl
  · rw [Operation.run_deploy h hne] at hd
    obtain ⟨_, _, _, _, hrest, _⟩ := happens_bind_ok hd
    exact hpublished hrest
  · rw [Operation.run_publishBackendImage h hne] at hd
    obtain ⟨ref, _, _, hfirst, hrest, _⟩ := happens_bind_ok hd
    obtain ⟨rfl, -⟩ := happens_buildImage_ok hfirst
    exact hpublished hrest
  · obtain ⟨ref, _, _, hfirst, hlast, _⟩ := happens_bind_ok hd
    obtain ⟨rfl, -⟩ := happens_buildImage_ok hfirst
    obtain ⟨-, hx⟩ := happens_pure hlast
    simpa using hx

/-! ## Steps that are only listed -/

/-- Two steps that publish the image of an order: one opens the registry, at the host that the
image's reference begins with, and reads the token there; the other sends the image to it. -/
structure Publication (c : Config) (o : Order) (token : Secret) (login push : Step) : Prop where
  login : ∃ host, (Text.splitOn '/' (c.imageRef o).toList).head? = some host.toList ∧
    login.command =
      { docker o.source ["login", host, "-u", c.backend.registryUser, "--password-stdin"] with
        input := some token }
  push : push.command = docker o.source ["push", c.imageRef o]

theorem publication (c : Config) (o : Order) (token : Secret) :
    Publication c o token (c.backend.login o token) (Backend.push o (c.imageRef o)) where
  login := ⟨_, c.backend.head?_imageRef o.imageTag, c.backend.command_login o token⟩
  push := Backend.command_push o _

/-- A task that goes on with more steps, and one that only says how it went. -/
theorem executed_bind {α β γ : Type} {t : Task α} {f : α → Task β} {g : α → Task γ}
    {steps : List Step} (hg : ∀ a, ∃ x, g a = pure x)
    (hf : ∀ a, ((ExceptT.run t).run .dry ()).result = .ok a →
      ((ExceptT.run (f a)).run .dry ()).executed = steps) :
    ((ExceptT.run (t >>= f)).run .dry ()).executed =
      ((ExceptT.run (t >>= g)).run .dry ()).executed ++
        if ((ExceptT.run (t >>= g)).run .dry ()).result.isOk then steps else [] := by
  rw [run_bind, run_bind]
  revert hf
  rcases (ExceptT.run t).run .dry () with ⟨e | a, executed, state⟩
  · intro _
    simp [Except.isOk, Except.toBool]
  · intro hf
    obtain ⟨x, hx⟩ := hg a
    have hlast : (ExceptT.run (pure x : Task γ)).run Executor.dry state = ⟨.ok x, [], state⟩ := rfl
    simp [hf a rfl, hx, hlast, Job.Run.after, Except.isOk, Except.toBool, -ExceptT.run_pure]

theorem executed_publish (c : Config) (o : Order) (token : Secret) (x : Result) :
    ((ExceptT.run (do c.publish o token (c.imageRef o); return x)).run .dry ()).executed =
      [c.backend.login o token, Backend.push o (c.imageRef o)] := rfl

theorem executed_deploy (h : o.token = some token) (hne : token.isEmpty = false) :
    (dryRun c o "deploy").executed = (dryRun c o "ci").executed ++
      if (dryRun c o "ci").result.isOk then
        [c.backend.login o token, Backend.push o (c.imageRef o)] else [] := by
  have hdeploy : dryRun c o "deploy" = (ExceptT.run (Operation.run c o .deploy)).run .dry () := rfl
  have hci : dryRun c o "ci" = (ExceptT.run (Operation.run c o .ci)).run .dry () := rfl
  rw [hdeploy, hci, Operation.run_deploy h hne, Operation.run]
  refine executed_bind (fun x => ?_) fun _ _ => executed_publish c o token _
  exact ⟨_, rfl⟩

theorem executed_publishBackendImage (h : o.token = some token) (hne : token.isEmpty = false) :
    (dryRun c o "publish-backend-image").executed =
      (dryRun c o "build-backend-image").executed ++
      if (dryRun c o "build-backend-image").result.isOk then
        [c.backend.login o token, Backend.push o (c.imageRef o)] else [] := by
  have hpublish : dryRun c o "publish-backend-image" =
      (ExceptT.run (Operation.run c o .publishBackendImage)).run .dry () := rfl
  have hbuild : dryRun c o "build-backend-image" =
      (ExceptT.run (Operation.run c o .buildBackendImage)).run .dry () := rfl
  rw [hpublish, hbuild, Operation.run_publishBackendImage h hne, Operation.run]
  refine executed_bind (fun x => ⟨.image x, rfl⟩) fun ref href => ?_
  obtain ⟨log, hlog, -⟩ := Job.happens_run Executor.dry (ExceptT.run (c.buildImage o)) ()
  rw [href] at hlog
  obtain ⟨rfl, -⟩ := happens_buildImage_ok hlog
  exact executed_publish c o token _

/-- In a configuration that has passed its check the backend can be built. -/
theorem result_buildBackendImage (hc : c.check = .ok c) :
    (dryRun c o "build-backend-image").result = .ok (.image (c.imageRef o)) := by
  obtain ⟨-, -, -, hname⟩ := Config.check_eq_ok hc
  obtain ⟨p, hp, hpname⟩ := List.mem_map.1 hname
  obtain ⟨q, hq⟩ : ∃ q, c.backendPackage = .ok q := by
    cases hfind : c.package? c.backend.package with
    | some q => exact ⟨q, by simp [Config.backendPackage, Config.package, hfind]⟩
    | none =>
      have hnone := List.find?_eq_none.1 hfind p hp
      simp [hpname] at hnone
  have hrun : dryRun c o "build-backend-image" =
      (ExceptT.run (Operation.run c o .buildBackendImage)).run .dry () := rfl
  rw [hrun, Operation.run, Config.buildImage, hq]
  rfl

/-- What is published has passed everything that `ci` asks of it, and is the image that was tried. A
deployment that ends well ends with the two steps that publish. -/
theorem publishes_what_passed (c : Config) (o : Order) (token : Secret) (h : o.token = some token)
    (hne : token.isEmpty = false) : ∃ login push, Publication c o token login push ∧
    (∀ log r, Happens (Operation.run c o .deploy) log r →
      (∀ before after s, log = before ++ .started s :: after → s.Publishes →
        ∃ p generation work trial,
          generation ++ work ++ trial <+: before ∧ Vetted c o p generation work trial) ∧
      ((∀ s, .started s ∈ log → ¬s.Publishes) →
        Happens (Operation.run c o .ci) log none ∧ ∀ x, r = some x →
          ∃ e, x = .error e ∧ Happens (Operation.run c o .ci) log (some (.error e))) ∧
      ∀ x, r = some (.ok x) → ∃ first last, log = first ++ last ∧ Passed [login, push] last) ∧
    ((dryRun c o "deploy").executed = (dryRun c o "ci").executed ++
      if (dryRun c o "ci").result.isOk then [login, push] else []) ∧
    ((dryRun c o "publish-backend-image").executed =
      (dryRun c o "build-backend-image").executed ++
      if (dryRun c o "build-backend-image").result.isOk then [login, push] else []) ∧
    (c.check = .ok c →
      (dryRun c o "build-backend-image").result = .ok (.image (c.imageRef o))) ∧
    ∀ (op : Operation) log r, Happens (op.run c o) log r →
      (∀ s, .started s ∈ log → s.Regards (c.imageRef o)) ∧
      (op = .deploy ∨ op = .publishBackendImage ∨ op = .buildBackendImage →
        ∀ x, r = some (.ok x) → x = .image (c.imageRef o)) := by
  refine ⟨_, _, publication c o token, fun log r hd => ⟨?_, ?_, ?_⟩, executed_deploy h hne,
    executed_publishBackendImage h hne, result_buildBackendImage,
    fun op log r hd => ⟨fun s hs => regards_run h hne op hd hs, ?_⟩⟩
  · intro before after s hlog hs
    exact vetted_of_publishes h hne hd hlog hs
  · exact happens_ci_of_unpublished h hne hd
  · rintro x rfl
    exact exists_published_of_deploy h hne hd
  · rintro hop x rfl
    exact image_of_run hop h hne hd

/-- The default configuration with an image that may print anything when it is tried. -/
def leniently : Config := { backend := { smokeExpect := "" } }

/-- An order that may publish. -/
def publishingOrder : Order := { plainOrder with token := some ⟨"alpha"⟩ }

theorem publishes_what_passed_leniently :
    publishingOrder.token = some ⟨"alpha"⟩ ∧ (⟨"alpha"⟩ : Secret).isEmpty = false ∧
    (∃ login push log first last,
      login.command =
        { docker "/repo" ["login", "ghcr.io", "-u", "scout-ci", "--password-stdin"] with
          input := some ⟨"alpha"⟩ } ∧
      push.command = docker "/repo" ["push", "ghcr.io/scout/scout-backend:dev"] ∧
      Happens (Operation.run leniently publishingOrder .deploy) log
        (some (.ok (.image "ghcr.io/scout/scout-backend:dev"))) ∧
      log = first ++ last ∧ Passed [login, push] last ∧
      ∃ p generation work trial, generation ++ work ++ trial <+: first ∧
        Vetted leniently publishingOrder p generation work trial) ∧
    (dryRun {} publishingOrder "deploy").executed = (dryRun {} publishingOrder "ci").executed := by
  have hne : (⟨"alpha"⟩ : Secret).isEmpty = false := by decide
  obtain ⟨login, push, ⟨⟨host, hhost, hlogin⟩, hpush⟩, deploy, -⟩ :=
    publishes_what_passed leniently publishingOrder ⟨"alpha"⟩ rfl hne
  obtain ⟨_, _, -, -, strict, -⟩ := publishes_what_passed {} publishingOrder ⟨"alpha"⟩ rfl hne
  refine ⟨rfl, hne, ?_, ?_⟩
  · have hsplit : (Text.splitOn '/' (leniently.imageRef publishingOrder).toList).head? =
        some "ghcr.io".toList := by decide +kernel
    obtain rfl : host = "ghcr.io" := String.toList_inj.1 (Option.some.inj (hhost.symm.trans hsplit))
    obtain ⟨log, hlog, -⟩ := Job.happens_run Executor.dry
      (ExceptT.run (Operation.run leniently publishingOrder .deploy)) ()
    have hresult : (dryRun leniently publishingOrder "deploy").result =
        .ok (.image "ghcr.io/scout/scout-backend:dev") := by decide +kernel
    replace hlog : Happens (Operation.run leniently publishingOrder .deploy) log
        (some (dryRun leniently publishingOrder "deploy").result) := hlog
    rw [hresult] at hlog
    obtain ⟨vetted, -, published⟩ := deploy log _ hlog
    obtain ⟨first, last, rfl, hlast⟩ := published _ rfl
    have href : leniently.imageRef publishingOrder = "ghcr.io/scout/scout-backend:dev" := by
      decide +kernel
    refine ⟨login, push, _, first, last, hlogin, ?_, hlog, rfl, hlast, ?_⟩
    · rw [hpush, href]
      rfl
    · -- The login is the first event of the part that publishes.
      cases hlast with
      | cons hpassed hrest =>
        refine vetted first _ login rfl (.inl ?_)
        exact ⟨congrArg Step.Command.program hlogin, congrArg (·.args.head?) hlogin⟩
  · have hfailed : (dryRun {} publishingOrder "ci").result.isOk = false := by decide +kernel
    rw [strict, hfailed, if_neg Bool.false_ne_true, List.append_nil]

end Steward.Ci
