import Steward.Ci.Config.Basic
import Steward.Toml.Decode
import Steward.Toml.Document
import Steward.Toml.Overlay

/-!
# Reading CI configurations

A configuration is a document of settings, with variables over it: the variable
`SCOUT_CI__BACKEND__IMAGE` sets `backend.image`. What is left out has its default, and what is not
known is passed over.

* `Config.ofText_eq_ok`: a configuration that is read has passed its check.
-/

namespace Steward.Ci

open Toml (fieldOr record? text? list? natural?)

/-- The package of a record; it has a name and a path. -/
def Package.ofToml? (v : Toml) : Option Package := do
  let fields ← record? ["name", "path", "check", "build", "artifact_dir", "coverage_dir"] v
  let name ← text? (← fields.lookup "name")
  let path ← text? (← fields.lookup "path")
  let plain : Package := { name, path }
  let checks ← fieldOr fields "check" (list? text?) plain.checks
  let build ← fieldOr fields "build" text? plain.build
  let artifacts ← fieldOr fields "artifact_dir" text? plain.artifacts
  let coverage ← fieldOr fields "coverage_dir" text? plain.coverage
  return { name, path, checks, build, artifacts, coverage }

/-- The backend of a record. -/
def Backend.ofToml? (v : Toml) : Option Backend := do
  let fields ← record? ["package", "registry", "registry_user", "image", "dockerfile",
    "smoke_command", "smoke_expect"] v
  let plain : Backend := {}
  let package ← fieldOr fields "package" text? plain.package
  let registry ← fieldOr fields "registry" text? plain.registry
  let registryUser ← fieldOr fields "registry_user" text? plain.registryUser
  let image ← fieldOr fields "image" text? plain.image
  let dockerfile ← fieldOr fields "dockerfile" text? plain.dockerfile
  let smokeCommand ← fieldOr fields "smoke_command" (list? text?) plain.smokeCommand
  let smokeExpect ← fieldOr fields "smoke_expect" text? plain.smokeExpect
  return { package, registry, registryUser, image, dockerfile, smokeCommand, smokeExpect }

/-- The lint settings of a record. -/
def lintOfToml? (v : Toml) : Option Lint.Settings := do
  let fields ← record? ["ignore", "rules"] v
  let ignored ← fieldOr fields "ignore" (list? text?) []
  let severities ←
    fieldOr fields "rules" (Toml.table? (Toml.choice? Lint.Severity.ofName?)) []
  return { ignored, severities }

/-- The tool settings of a record. -/
def toolsOfToml? (v : Toml) : Option ToolSettings := do
  let fields ← record? ["cache_ttl_secs", "timeout_secs", "knip_command", "jscpd_command"] v
  let plain : ToolSettings := {}
  let keepSecs ← fieldOr fields "cache_ttl_secs" natural? plain.keepSecs
  let timeoutSecs ← fieldOr fields "timeout_secs" natural? plain.timeoutSecs
  let knipCommand ← fieldOr fields "knip_command" text? plain.knipCommand
  let jscpdCommand ← fieldOr fields "jscpd_command" text? plain.jscpdCommand
  return { keepSecs, timeoutSecs, knipCommand, jscpdCommand }

namespace Config

/-- The configuration of settings. -/
def ofToml? (v : Toml) : Option Config := do
  let fields := v.fields
  let plain : Config := {}
  let stepTimeoutSecs ← fieldOr fields "step_timeout_secs" natural? plain.stepTimeoutSecs
  let packages ← fieldOr fields "packages" (list? Package.ofToml?) plain.packages
  let backend ← fieldOr fields "backend" Backend.ofToml? plain.backend
  let lint ← fieldOr fields "lint" lintOfToml? plain.lint
  let tools ← fieldOr fields "tools" toolsOfToml? plain.tools
  return { stepTimeoutSecs, packages, backend, lint, tools }

/-- What the names of variables that set something begin with. -/
def variableMark : String := "scout_ci__"

/-- The setting of a variable, whose name counts without regard to the case of letters. -/
def settingOf (v : String × String) : Option (String × Toml) :=
  (Text.after? variableMark.toList v.1.toLower.toList).map fun key =>
    (String.ofList (Text.replaceAll "__".toList ".".toList key), .text v.2)

/-- The configuration of a text in a format, with variables over it. -/
def ofText (format : Toml.Format) (text : String) (vars : List (String × String)) :
    Except Fault Config :=
  match format.read? text with
  | none => .error .unreadable
  | some document =>
    let settings := Toml.overlay (Toml.overlay .empty document.fields)
      (vars.filterMap settingOf)
    match ofToml? settings with
    | none => .error .unreadable
    | some c => c.check

theorem ofText_eq_ok {format : Toml.Format} {text : String} {vars : List (String × String)}
    {c : Config} (h : ofText format text vars = .ok c) : c.check = .ok c := by
  unfold ofText at h
  split at h
  · cases h
  · simp only at h
    split at h
    · cases h
    · have hc := (check_eq_ok h).1
      rwa [← hc] at h

end Config

end Steward.Ci
