import Steward.Toml.Basic

/-!
# Tables under construction

A document builds its tables piece by piece: a header opens a table, dotted keys reach into tables
of their own, and what is once written as a value is closed. No table is opened twice, and no field
is set twice.
-/

namespace Steward.Toml

/-- How a table came about. -/
inductive Origin where
  /-- A header named it. -/
  | header
  /-- It lies on the way to a table that a header named. -/
  | implied
  /-- A dotted key reached into it. -/
  | dotted
deriving DecidableEq, Repr

/-- A field under construction. -/
inductive Node where
  | value (v : Toml)
  | table (origin : Origin) (fields : List (String × Node))
  /-- Tables that headers of the same name have opened one after the other, the last one first. -/
  | tables (last : List (String × Node)) (before : List (List (String × Node)))

/-- Fields under construction. -/
abbrev Nodes := List (String × Node)

/-- Changes the fields of the table at the end of a path, given how it came about. Tables that are
missing on the way are made; dotted keys do not reach into tables that a header named. -/
def Nodes.change (dotted : Bool) (f : Origin → Nodes → Option Nodes) :
    (path : List String) → Origin → Nodes → Option Nodes
  | [], origin, nodes => f origin nodes
  | name :: path, _, nodes =>
    match nodes.lookup name with
    | none => do
      let origin := if dotted then Origin.dotted else .implied
      let fields ← change dotted f path origin []
      return put name (.table origin fields) nodes
    | some (.value _) => none
    | some (.tables last before) => do
      return put name (.tables (← change dotted f path .header last) before) nodes
    | some (.table origin fields) => do
      if dotted && origin = .header then none
      else return put name (.table origin (← change dotted f path origin fields)) nodes

/-- Sets the field that a dotted key names, in a table. -/
def Nodes.set (path : List String) (name : String) (v : Toml) (nodes : Nodes) : Option Nodes :=
  nodes.change true (fun origin fields =>
    if (origin = .dotted ↔ path ≠ []) ∧ (fields.lookup name).isNone then
      some (put name (.value v) fields)
    else none) path .header

/-- Opens the table that a header names. -/
def Nodes.openTable (path : List String) (name : String) (nodes : Nodes) : Option Nodes :=
  nodes.change false (fun _ fields =>
    match fields.lookup name with
    | none => some (put name (.table .header []) fields)
    | some (.table .implied inner) => some (put name (.table .header inner) fields)
    | _ => none) path .header

/-- Opens the next of the tables that a header names. -/
def Nodes.openNext (path : List String) (name : String) (nodes : Nodes) : Option Nodes :=
  nodes.change false (fun _ fields =>
    match fields.lookup name with
    | none => some (put name (.tables [] []) fields)
    | some (.tables last before) => some (put name (.tables [] (last :: before)) fields)
    | _ => none) path .header

mutual

/-- A finished field. -/
def Node.finish : Node → Toml
  | .value v => v
  | .table _ fields => .table (finishFields fields)
  | .tables last before => .list ((Toml.table (finishFields last) :: finishTables before).reverse)

/-- Finished fields. -/
def finishFields : Nodes → List (String × Toml)
  | [] => []
  | (name, n) :: rest => (name, n.finish) :: finishFields rest

/-- Finished tables. -/
def finishTables : List Nodes → List Toml
  | [] => []
  | fields :: rest => .table (finishFields fields) :: finishTables rest

end

/-- The finished table of fields. -/
def Nodes.finish (nodes : Nodes) : Toml := .table (finishFields nodes)

end Steward.Toml
