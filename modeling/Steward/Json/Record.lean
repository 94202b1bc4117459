import Steward.Json.Basic
import Steward.Snowflake
import Steward.Time.Stamp
import Steward.Word

/-!
# Reading documents

How a JSON value is read as a domain value. A record is an object whose fields may stand in any
order, with unknown ones ignored and none twice, or a list of its fields in declared order. Faults
are found in document order, missing fields last.

* `Fields.read_object`: reading an object is scanning its fields and then building the record.
-/

namespace Steward.Json

instance : Encode Snowflake := ⟨fun id => text id.text⟩
instance : Encode Time.Instant := ⟨fun t => text t.stamp⟩

/-- Why a document was refused. -/
inductive Fault where
  /-- An identifier in it was refused. -/
  | identifier (cause : Snowflake.Fault)
  /-- It has not the form that is asked for. -/
  | form
deriving DecidableEq, Repr

/-- A way to read a value. -/
abbrev Decoder (α : Type) := Json → Except Fault α

namespace Decoder

/-- The value of an optional reading, or a fault of form. -/
def orForm {α : Type} : Option α → Except Fault α
  | some a => .ok a
  | none => .error .form

/-- A string. -/
def string : Decoder String := fun v => orForm v.text?

/-- A flag. -/
def flag : Decoder Bool := fun v => orForm v.bool?

/-- An integer from `lo` up to `hi`. -/
def integer (lo hi : Int) : Decoder Int := fun v =>
  match v with
  | .int n => if lo ≤ n ∧ n ≤ hi then .ok n else .error .form
  | _ => .error .form

/-- A signed integer of 32 bits. -/
def int32 : Decoder Int := integer (-Word.bound32) (Word.bound32 - 1)

/-- A natural number below a bound. -/
def unsigned (bound : Nat) : Decoder Nat := fun v => (integer 0 (bound - 1) v).map Int.toNat

/-- A position or count of 32 bits. -/
def uint32 : Decoder UInt32 := fun v => (unsigned Word.count32 v).map UInt32.ofNat

/-- An identifier, as a decimal string or an integer of 64 bits. -/
def snowflake : Decoder Snowflake := fun v =>
  match v with
  | .text s =>
    match Snowflake.read s with
    | .ok id => .ok id
    | .error e => .error (.identifier e)
  | .int n => if Snowflake.inRange n then .ok ⟨n⟩ else .error (.identifier .outOfRange)
  | _ => .error .form

/-- A time stamp. -/
def instant : Decoder Time.Instant := fun v => orForm (v.text?.bind Time.Instant.read?)

/-- A value, or `null` for none. -/
def option {α : Type} (d : Decoder α) : Decoder (Option α) := fun v =>
  match v with
  | .null => .ok none
  | v => (d v).map some

/-- One of several names, as a string or as the only field of an object, with an empty value. -/
def name {α : Type} (read? : String → Option α) : Decoder α := fun v =>
  match v with
  | .text s => orForm (read? s)
  | .object [(s, .null)] => orForm (read? s)
  | _ => .error .form

/-- Reads each item in turn, up to the first fault. -/
def each {α : Type} (d : Decoder α) : List Json → Except Fault (List α)
  | [] => .ok []
  | v :: rest => do
    let a ← d v
    let more ← each d rest
    return a :: more

/-- A list of values. -/
def list {α : Type} (d : Decoder α) : Decoder (List α) := fun v =>
  match v with
  | .list items => each d items
  | _ => .error .form

end Decoder

/-! ## Records -/

/-- The fields of a record: their names in declared order with a check of each value, and how the
record is built from the values found, which may rely on the checks. In a list of fields, `false`
for `byName`, only a field with a default may be missing. -/
structure Fields (α : Type) where
  checks : List (String × (Json → Except Fault Unit))
  build : (byName : Bool) → List (String × Json) → Except Fault α

namespace Fields

/-- A record without fields. -/
def pure {α : Type} (a : α) : Fields α := ⟨[], fun _ _ => .ok a⟩

/-- The check of a decoder. -/
def check {α : Type} (d : Decoder α) (v : Json) : Except Fault Unit := (d v).map fun _ => ()

/-- A field that must be present. -/
def required {α : Type} (name : String) (d : Decoder α) : Fields α :=
  ⟨[(name, check d)], fun _ found =>
    match found.lookup name with
    | some v => d v
    | none => .error .form⟩

/-- A field that is `none` where an object lacks it. -/
def optional {α : Type} (name : String) (d : Decoder α) : Fields (Option α) :=
  ⟨[(name, check d.option)], fun byName found =>
    match found.lookup name with
    | some v => d.option v
    | none => if byName then .ok none else .error .form⟩

/-- A field that has a default. -/
def defaulted {α : Type} (name : String) (d : Decoder α) (a : α) : Fields α :=
  ⟨[(name, check d)], fun _ found =>
    match found.lookup name with
    | some v => d v
    | none => .ok a⟩

/-- The fields of two parts of a record, in this order. -/
def app {α β : Type} (f : Fields (α → β)) (x : Fields α) : Fields β :=
  ⟨f.checks ++ x.checks, fun byName found => do
    let g ← f.build byName found
    let a ← x.build byName found
    return g a⟩

/-- A record with its value changed. -/
def map {α β : Type} (g : α → β) (x : Fields α) : Fields β :=
  ⟨x.checks, fun byName found => (x.build byName found).map g⟩

instance : Functor Fields := ⟨fun g x => map g x, fun a x => map (fun _ => a) x⟩
instance : Seq Fields := ⟨fun f x => app f (x ())⟩

/-- Goes through the fields of an object in document order: an unknown field is passed over, a known
one is checked, and none may come twice. -/
def scan (checks : List (String × (Json → Except Fault Unit))) :
    (seen : List String) → List (String × Json) → Except Fault Unit
  | _, [] => .ok ()
  | seen, (name, v) :: rest =>
    match checks.lookup name with
    | none => scan checks seen rest
    | some check =>
      if seen.contains name then .error .form
      else do
        check v
        scan checks (name :: seen) rest

/-- Goes through the items of a list of fields; there may be no more than fields. -/
def scanItems :
    List (String × (Json → Except Fault Unit)) → List Json → Except Fault (List (String × Json))
  | _, [] => .ok []
  | [], _ :: _ => .error .form
  | (name, check) :: checks, v :: rest => do
    check v
    let more ← scanItems checks rest
    return (name, v) :: more

/-- Reads a record. -/
def read {α : Type} (f : Fields α) : Decoder α := fun v =>
  match v with
  | .object fields => do
    scan f.checks [] fields
    f.build true fields
  | .cut fields => do
    scan f.checks [] fields
    .error .form
  | .list items => do
    let found ← scanItems f.checks items
    f.build false found
  | _ => .error .form

theorem read_object {α : Type} (f : Fields α) (fields : List (String × Json)) :
    f.read (.object fields) = (scan f.checks [] fields).bind fun _ => f.build true fields := rfl

end Fields

/-! ## Tagged records -/

/-- The field that names the alternative of a tagged record. -/
def tagName : String := "type"

/-- Goes through the fields of a tagged record: the tag must be one of the names that `alternative?`
knows and come once, and every other field must have been read. Gives the alternative. -/
def findTag {α : Type} (alternative? : String → Option α) :
    (found : Option α) → List (String × Json) → Except Fault α
  | some a, [] => .ok a
  | none, [] => .error .form
  | found, (name, v) :: rest =>
    if name = tagName then
      match found with
      | some _ => .error .form
      | none => do
        let a ← Decoder.orForm (v.text?.bind alternative?)
        findTag alternative? (some a) rest
    else if v.readable then findTag alternative? found rest
    else .error .form

/-- Reads a tagged record: an object with a tag among its fields, or a list with the tag first. -/
def tagged {α : Type} (alternative? : String → Option (Fields α)) : Decoder α := fun v =>
  match v with
  | .object fields => do
    let f ← findTag alternative? none fields
    f.read (.object (fields.filter fun (n, _) => n ≠ tagName))
  | .list (.text tag :: items) => do
    let f ← Decoder.orForm (alternative? tag)
    if readableItems items then f.read (.list items) else .error .form
  | _ => .error .form

/-- One of several names inside a tagged record, where the empty value may also be written as an
empty object. -/
def taggedName {α : Type} (read? : String → Option α) : Decoder α := fun v =>
  match v with
  | .object [(s, .object [])] => Decoder.orForm (read? s)
  | v => Decoder.name read? v

end Steward.Json
