import Steward.Time.Instant

/-!
# Results kept for a while

Results of expensive computations, one for each key. A lookup takes a result that is younger than a
given span; computing a new one replaces it, and failing leaves it as it was. Instants are
nanoseconds of a clock that starts anywhere.
-/

namespace Steward.Tool

open Time

/-- A result, with the instant at which it was stored. -/
structure Cache.Entry (α : Type) where
  key : String
  storedAt : Nat
  value : α

/-- Results by key, and the age up to which they are taken unless a lookup says otherwise. -/
structure Cache (α : Type) where
  entries : List (Cache.Entry α)
  lifetime : Span

namespace Cache

variable {α ε : Type}

/-- The age up to which results are taken by default. -/
def defaultLifetime : Span := .seconds 60

/-- No results. -/
def empty (lifetime : Span) : Cache α := ⟨[], lifetime⟩

/-- How many results there are, fresh or not. -/
def size (c : Cache α) : Nat := c.entries.length

/-- The entry of a key, fresh or not. -/
def find? (c : Cache α) (key : String) : Option (Entry α) := c.entries.find? (·.key = key)

/-- The result of a key, if it is younger than the lifetime of this lookup. -/
def get? (c : Cache α) (now : Nat) (key : String) (lifetime : Option Span) : Option α :=
  ((c.find? key).filter fun e => now - e.storedAt < (lifetime.getD c.lifetime).nanos).map (·.value)

/-- The cache without the result of a key. -/
def invalidate (c : Cache α) (key : String) : Cache α :=
  { c with entries := c.entries.filter (·.key ≠ key) }

/-- Drops the result of a key, and tells whether there was one, fresh or not. -/
def forget (c : Cache α) (key : String) : Bool × Cache α :=
  ((c.find? key).isSome, c.invalidate key)

/-- The cache with a result stored now. -/
def insert (c : Cache α) (now : Nat) (key : String) (value : α) : Cache α :=
  { c with entries := ⟨key, now, value⟩ :: (c.invalidate key).entries }

/-- The cache without any results. -/
def clear (c : Cache α) : Cache α := { c with entries := [] }

/-- The cache after a computation has ended: a result is stored, a failure changes nothing. -/
def settle (c : Cache α) (now : Nat) (key : String) : Except ε α → Cache α
  | .ok value => c.insert now key value
  | .error _ => c

/-- Looks a key up, and where that misses takes the outcome of a computation, which ends at
`finish`. Gives the outcome, whether the computation ran, and the cache after it. -/
def fetch (c : Cache α) (key : String) (lifetime : Option Span) (start finish : Nat)
    (outcome : Except ε α) : Except ε α × Bool × Cache α :=
  match c.get? start key lifetime with
  | some value => (.ok value, false, c)
  | none => (outcome, true, c.settle finish key outcome)

/-- A fetch that has begun: a result was found, or the computation for a key runs. -/
inductive Fetching (α : Type) where
  | hit (value : α)
  | running (key : String)

/-- Begins a fetch whose computation may pause. -/
def beginFetch (c : Cache α) (now : Nat) (key : String) (lifetime : Option Span) : Fetching α :=
  match c.get? now key lifetime with
  | some value => .hit value
  | none => .running key

/-- Ends a fetch whose computation may have paused, in the cache as it is by then. Gives the
outcome, whether the computation ran, and the cache after it. -/
def Fetching.finish (f : Fetching α) (c : Cache α) (now : Nat) (outcome : Except ε α) :
    Except ε α × Bool × Cache α :=
  match f with
  | .hit value => (.ok value, false, c)
  | .running key => (outcome, true, c.settle now key outcome)

@[simp] theorem find?_insert (c : Cache α) (now : Nat) (key : String) (value : α) :
    (c.insert now key value).find? key = some ⟨key, now, value⟩ := by
  simp [find?, insert]

theorem find?_invalidate_of_ne (c : Cache α) {key other : String} (h : other ≠ key) :
    (c.invalidate key).find? other = c.find? other := by
  unfold find? invalidate
  induction c.entries with
  | nil => rfl
  | cons e rest ih =>
    by_cases hk : e.key = key
    · have ho : e.key ≠ other := fun he => h (he.symm.trans hk)
      simpa [List.filter_cons, List.find?_cons, hk, ho, Ne.symm h] using ih
    · by_cases ho : e.key = other
      · simp [ho, h]
      · simpa [List.filter_cons, List.find?_cons, hk, ho] using ih

@[simp] theorem find?_invalidate (c : Cache α) (key : String) :
    (c.invalidate key).find? key = none := by
  simp [find?, invalidate, List.find?_eq_none]

theorem find?_insert_of_ne (c : Cache α) (now : Nat) {key other : String} (value : α)
    (h : other ≠ key) : (c.insert now key value).find? other = c.find? other := by
  rw [← find?_invalidate_of_ne c h]
  simp [find?, insert, Ne.symm h]

@[simp] theorem find?_clear (c : Cache α) (key : String) : c.clear.find? key = none := rfl

end Cache

end Steward.Tool
