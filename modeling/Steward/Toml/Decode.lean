import Steward.Text.Search
import Steward.Toml.Basic
import Steward.Word

/-!
# Taking values from settings

Settings come from people and from variables, so one kind of scalar stands in for another: a number
for its text, the text of a number for the number, `true` for one. A list or a table is never taken
for a scalar, nor a scalar for them.
-/

namespace Steward.Toml

/-- The text of a value. -/
def text? : Toml → Option String
  | text s | moment s => some s
  | int n => some (Text.decimalInt n)
  | float x => some x.text
  | bool b => some (if b then "true" else "false")
  | nothing | list _ | table _ => none

/-- The bound of natural numbers of 64 bits. -/
def naturalBound : Nat := Word.count64

/-- The natural number that a text says. -/
def naturalOf? (s : String) : Option Nat :=
  match s.toLower with
  | "true" | "on" | "yes" => some 1
  | "false" | "off" | "no" => some 0
  | _ => Text.ofUnsigned? naturalBound s.toList

/-- The natural number of a value. -/
def natural? : Toml → Option Nat
  | int n => if n < 0 then none else some n.toNat
  | float x => some (x.nearestNatural naturalBound)
  | bool b => some b.toNat
  | text s | moment s => naturalOf? s
  | nothing | list _ | table _ => none

/-- The items of a list, each read alike. -/
def list? {α : Type} (item? : Toml → Option α) : Toml → Option (List α)
  | list items => items.mapM item?
  | _ => none

/-- The fields of a table, each value read alike. -/
def table? {α : Type} (item? : Toml → Option α) : Toml → Option (List (String × α))
  | table fields => fields.mapM fun (name, v) => (item? v).map (name, ·)
  | _ => none

/-- The fields of a record: those of a table, or the items of a list in the order of the names. -/
def record? (names : List String) : Toml → Option (List (String × Toml))
  | table fields => some fields
  | list items => some (names.zip items)
  | _ => none

/-- A value of which only the name counts: a text, or a table of one field. Names count without
regard to the case of letters. -/
def choice? {α : Type} (ofName? : String → Option α) : Toml → Option α
  | text s | moment s => ofName? s.toLower
  | table [(name, _)] => ofName? name.toLower
  | _ => none

/-- A field of a record, or a default where it is missing. -/
def fieldOr {α : Type} (fields : List (String × Toml)) (name : String) (read? : Toml → Option α)
    (default : α) : Option α :=
  match fields.lookup name with
  | none => some default
  | some v => read? v

end Steward.Toml
