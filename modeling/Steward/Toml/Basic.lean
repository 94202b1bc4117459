import Steward.Binary64

/-!
# TOML values

The tree that a TOML text stands for. Dates and times are kept as their canonical texts. A text in
another format may also say that a value is nothing.
-/

namespace Steward

/-- A TOML value. -/
inductive Toml where
  | text (s : String)
  | int (n : Int)
  | float (x : Binary64)
  | bool (b : Bool)
  /-- A date, a time, or both, in writing. -/
  | moment (s : String)
  /-- A value that is written, but is none. -/
  | nothing
  | list (items : List Toml)
  | table (fields : List (String × Toml))

namespace Toml

/-- The table without fields. -/
def empty : Toml := table []

/-- The fields of a table; any other value has none. -/
def fields : Toml → List (String × Toml)
  | table fields => fields
  | _ => []

/-- The fields with the value of a name replaced, or added where there is none. -/
def put {α : Type} (name : String) (v : α) : List (String × α) → List (String × α)
  | [] => [(name, v)]
  | (n, w) :: rest => if n = name then (n, v) :: rest else (n, w) :: put name v rest

theorem lookup_put {α : Type} (name other : String) (v : α) (fields : List (String × α)) :
    (put name v fields).lookup other =
      if other = name then some v else fields.lookup other := by
  induction fields with
  | nil => by_cases h : other = name <;> simp [put, List.lookup_cons, h, beq_false_of_ne]
  | cons f rest ih =>
    obtain ⟨n, w⟩ := f
    by_cases hn : n = name
    · subst hn
      by_cases ho : other = n <;> simp [put, List.lookup_cons, ho, beq_false_of_ne]
    · by_cases ho : other = n
      · subst ho
        simp [put, hn]
      · simp only [put, hn, if_false, List.lookup_cons, beq_false_of_ne ho]
        exact ih

end Toml

end Steward
