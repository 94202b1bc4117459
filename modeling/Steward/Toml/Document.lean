import Steward.Json.Reader
import Steward.Toml.Reader

/-!
# Documents of settings

Settings are written in TOML or in JSON; the ending of a file's name says in which.

* `Format.exists_fields_of_read?`: a document is a table.
-/

namespace Steward.Toml

/-- A way to write settings. -/
inductive Format where
  | toml
  | json
deriving DecidableEq, Repr

/-- The fields of a table with those of a list put in, each in place of an earlier one of its
name. -/
def putAll (fields more : List (String × Toml)) : List (String × Toml) :=
  more.foldl (fun acc (name, v) => put name v acc) fields

/-- The whole number of a JSON text; one beyond 64 bits with a sign is a float. -/
def ofWhole (n : Int) : Toml :=
  if n < Word.bound64 then int n else float (.ofDecimal false n.toNat 0)

mutual

/-- The settings of a JSON value. -/
def ofJson : Json → Toml
  | .null | .unread | .cut _ => nothing
  | .bool b => bool b
  | .int n => ofWhole n
  | .float x => float x
  | .text s => text s
  | .list items => list (ofItems items)
  | .object fields => table (putAll [] (ofFields fields))

/-- The settings of JSON items. -/
def ofItems : List Json → List Toml
  | [] => []
  | v :: rest => ofJson v :: ofItems rest

/-- The settings of JSON fields. -/
def ofFields : List (String × Json) → List (String × Toml)
  | [] => []
  | (name, v) :: rest => (name, ofJson v) :: ofFields rest

end

/-- The table of a JSON object; no other value is a document. -/
def ofObject? : Json → Option Toml
  | .object fields => some (ofJson (.object fields))
  | _ => none

namespace Format

/-- The formats, in the order in which files are looked for. -/
def all : List Format := [toml, json]

/-- The ending of the names of files. -/
def ending : Format → String
  | toml => ".toml"
  | json => ".json"

/-- The format of a file. -/
def ofName? (file : String) : Option Format := all.find? fun f => file.endsWith f.ending

/-- The settings in a text. -/
def read? (f : Format) (s : String) : Option Toml :=
  match f with
  | toml => Toml.read s
  | json => (Json.readWhole? s).bind ofObject?

theorem exists_fields_of_read? {f : Format} {s : String} {t : Toml} (h : f.read? s = some t) :
    ∃ fields, t = table fields := by
  cases f with
  | toml =>
    obtain ⟨d, -, rfl⟩ := Option.map_eq_some_iff.1 h
    exact ⟨_, rfl⟩
  | json =>
    obtain ⟨v, -, hv⟩ := Option.bind_eq_some_iff.1 h
    cases v <;> simp [ofObject?, ofJson] at hv
    exact ⟨_, hv.symm⟩

end Format

end Steward.Toml
