import Steward.Ci.Fault
import Steward.Lint.Config
import Steward.Path
import Steward.Settings.Basic

/-!
# CI configurations

The packages of a workspace, the image of its backend, and the limits of CI work on them.

* `Config.check_eq_ok`: a configuration that passes the check is unchanged, its packages have names
  of their own, and the backend's package is one of them.
-/

namespace Steward.Ci

/-- A package of the workspace. -/
structure Package where
  name : String
  /-- Where the package lies in the source tree. -/
  path : String
  /-- The scripts that check the package. -/
  checks : List String := ["typecheck", "lint", "test"]
  /-- The script that builds the package. -/
  build : String := "build"
  /-- Where builds go, in the package. -/
  artifacts : String := "dist"
  /-- Where coverage reports go, in the package. -/
  coverage : String := "coverage"
deriving DecidableEq, Repr

/-- The backend and its image. -/
structure Backend where
  package : String := "backend"
  registry : String := "ghcr.io/scout"
  registryUser : String := "scout-ci"
  image : String := "scout-backend"
  /-- Where the build instructions lie, in the package. -/
  dockerfile : String := "Dockerfile"
  /-- The command that the image has to pass. -/
  smokeCommand : List String := ["bun", "run", "healthcheck"]
  /-- What that command has to print. -/
  smokeExpect : String := "ok"
deriving DecidableEq, Repr

/-- The package of a name that lies in the folder of packages. -/
def Package.ofName (name : String) : Package := { name, path := "packages/" ++ name }

/-- A configuration. -/
structure Config where
  /-- The seconds after which a step is stopped. -/
  stepTimeoutSecs : Nat := 1800
  packages : List Package :=
    ["backend", "frontend", "desktop", "report", "data"].map Package.ofName
  backend : Backend := {}
  lint : Lint.Settings := {}
  tools : ToolSettings := {}
deriving DecidableEq, Repr

namespace Backend

/-- The reference of the image with a tag. -/
def imageRef (b : Backend) (tag : String) : String :=
  String.ofList (Text.trimEndBy (· = '/') b.registry.toList) ++ "/" ++ b.image ++ ":" ++ tag

/-- The host of the registry. -/
def registryHost (b : Backend) : String := String.ofList (b.registry.toList.takeWhile (· ≠ '/'))

end Backend

namespace Config

/-- The package of a name. -/
def package? (c : Config) (name : String) : Option Package :=
  c.packages.find? (·.name = name)

/-- The package of a name, which has to be declared. -/
def package (c : Config) (name : String) : Except Ci.Fault Package :=
  match c.package? name with
  | some p => .ok p
  | none => .error (.unknownPackage name)

/-- The backend's package, which has to be declared. -/
def backendPackage (c : Config) : Except Ci.Fault Package := c.package c.backend.package

/-- The first name of a list that also stands before. -/
def repeated? : List String → Option String := go []
where
  /-- The first name that also stands before, given the names before the list. -/
  go (before : List String) : List String → Option String
    | [] => none
    | name :: rest => if name ∈ before then some name else go (name :: before) rest

/-- The names of the packages. -/
def names (c : Config) : List String := c.packages.map (·.name)

/-- The configuration, if it can be used: there is time for steps, no package is declared twice, and
the backend's package is declared. -/
def check (c : Config) : Except Fault Config :=
  if c.stepTimeoutSecs = 0 then .error .noTime
  else
    match repeated? c.names with
    | some name => .error (.declaredTwice name)
    | none =>
      if c.backend.package ∈ c.names then .ok c else .error (.undeclaredBackend c.backend.package)

theorem repeated?_go_eq_none_iff {before names : List String} :
    repeated?.go before names = none ↔ names.Nodup ∧ ∀ n ∈ names, n ∉ before := by
  induction names generalizing before with
  | nil => simp [repeated?.go]
  | cons name rest ih =>
    simp only [repeated?.go, List.nodup_cons, List.mem_cons]
    split
    · next h => simp [h]
    · next h =>
      rw [ih]
      constructor
      · rintro ⟨hn, hb⟩
        refine ⟨⟨fun hm => hb name hm (List.mem_cons_self ..), hn⟩, ?_⟩
        rintro n (rfl | hm)
        · exact h
        · exact fun hn => hb n hm (List.mem_cons_of_mem _ hn)
      · rintro ⟨⟨hm, hn⟩, hb⟩
        refine ⟨hn, fun n hr => ?_⟩
        simp only [List.mem_cons, not_or]
        exact ⟨fun he => hm (he ▸ hr), hb n (.inr hr)⟩

theorem repeated?_eq_none_iff {names : List String} : repeated? names = none ↔ names.Nodup := by
  simp [repeated?, repeated?_go_eq_none_iff]

theorem check_eq_ok {c d : Config} (h : c.check = .ok d) :
    d = c ∧ 0 < c.stepTimeoutSecs ∧ c.names.Nodup ∧ c.backend.package ∈ c.names := by
  unfold check at h
  split at h
  · cases h
  · split at h
    · cases h
    · next ht _ hr =>
      split at h
      · next hb => exact ⟨(Except.ok.inj h).symm, by omega, repeated?_eq_none_iff.1 hr, hb⟩
      · cases h

/-! ## Documents -/

open Json (encode field)

instance : Json.Encode Package :=
  ⟨fun p => .object [field "name" p.name, field "path" p.path, field "check" p.checks,
    field "build" p.build, field "artifact_dir" p.artifacts, field "coverage_dir" p.coverage]⟩

instance : Json.Encode Backend :=
  ⟨fun b => .object [field "package" b.package, field "registry" b.registry,
    field "registry_user" b.registryUser, field "image" b.image, field "dockerfile" b.dockerfile,
    field "smoke_command" b.smokeCommand, field "smoke_expect" b.smokeExpect,
    field "registry_host" b.registryHost]⟩

/-- The document of lint settings, the rules in the order of their names. -/
def lintDocument (c : Lint.Settings) : Json :=
  let rules := (c.severities.map fun (rule, s) => (rule, s.name)).mergeSort fun a b => a.1 ≤ b.1
  .object [field "ignore" c.ignored, field "rules" rules]

/-- The fields of a configuration's document. -/
def document (c : Config) : List (String × Json) :=
  [field "step_timeout_secs" c.stepTimeoutSecs, field "packages" c.packages,
    field "backend" c.backend, field "backend_package" (c.package? c.backend.package),
    ("lint", lintDocument c.lint),
    field "tools" [encode c.tools.knipCommand, encode c.tools.jscpdCommand,
      encode c.tools.timeoutSecs, encode c.tools.keepSecs]]

end Config

end Steward.Ci
