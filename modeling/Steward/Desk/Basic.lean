import Steward.Settings.Basic
import Steward.Store.Script

/-!
# The desk

What every service call has at hand, and how calls fail.
-/

namespace Steward

/-- The calendar, the limits and the cooldown that service calls go by. -/
structure Desk where
  calendar : Calendar
  limits : Limits
  /-- The cooldown between creations, in seconds. -/
  cooldown : Nat
deriving DecidableEq

namespace Desk

/-- The desk of given limits with the built-in calendar. -/
def ofLimits (limits : Limits) : Desk := ⟨.builtin, limits, limits.cooldown⟩

/-- Which parts a desk was given. -/
structure Parts where
  competitions : Bool := false
  participants : Bool := false
  grants : Bool := false
  players : Bool := false
  cooldown : Option Nat := none
  calendar : Option Calendar := none
  limits : Option Limits := none

/-- The desk of its parts: the tables must be there, all else has a default. -/
def ofParts (p : Parts) : Except Setback Desk :=
  let limits := p.limits.getD {}
  if !p.competitions then .error (.validation "competition_repo is required")
  else if !p.participants then .error (.validation "participant_repo is required")
  else if !p.grants then .error (.validation "permission_repo is required")
  else if !p.players then .error (.validation "player_repo is required")
  else .ok ⟨p.calendar.getD .builtin, limits, p.cooldown.getD limits.cooldown⟩

end Desk

namespace Call

/-- One store operation. -/
def perform (op : StoreOp) : Call op.Answer := ExceptT.lift (Script.perform op)

/-- A call that fails with a refusal. -/
def refuse {α : Type} (r : Refusal) : Call α := throw (.refusal r)

/-- A check that fails with its refusal. -/
def check (c : Except Refusal Unit) : Call Unit :=
  match c with
  | .ok () => return ()
  | .error e => refuse e

end Call

end Steward
