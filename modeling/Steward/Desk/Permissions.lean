import Steward.Desk.Basic
import Steward.Desk.View

/-!
# Permission calls

Giving and taking permissions, and whether a user may create a competition: users who are no
administrators need the permission, and the cooldown holds for all.
-/

namespace Steward.Desk

open Call

/-- Grants a permission; a second grant gives back the first. -/
def grantPermission (server user : Snowflake) (permission : Permission) (by' : Snowflake) :
    Call Grant := do
  let now ← perform .now
  perform (.addGrant ⟨server, user, permission, by', now⟩)

/-- Takes a permission away; whether there was one. -/
def revokePermission (server user : Snowflake) (permission : Permission) : Call Bool :=
  perform (.removeGrant server user permission)

/-- Whether a user holds a permission. -/
def hasPermission (server user : Snowflake) (permission : Permission) : Call Bool := do
  let grant ← perform (.grant? server user permission)
  return grant.isSome

/-- All grants of a server, oldest first. -/
def listPermissions (server : Snowflake) : Call (List Grant) := perform (.grantsOf server)

/-- The cooldown's decision on a creation now. -/
def checkCooldown (d : Desk) (server user : Snowflake) : Call Cooldowns.Decision := do
  let now ← perform .now
  let last ← perform (.lastCreation? (server, user))
  return Cooldowns.decide d.cooldown last now

/-- What a user who is permitted to create is told, given the cooldown's decision; one that
overflows is told as it wraps. -/
def previewOf : Cooldowns.Decision → CreationPreview
  | .allowed => .allowed
  | .wait secs | .overflow secs => .wait (Refusal.rateLimited secs).message secs

/-- Whether a user may create a competition now. -/
def canCreateCompetition (d : Desk) (server user : Snowflake) (admin : Bool) :
    Call CreationPreview := do
  let permitted ← if admin then pure true else hasPermission server user .createCompetition
  if permitted then return previewOf (← checkCooldown d server user)
  else return .denied (Refusal.missingPermission .createCompetition).message

/-- Whether the question who may create a competition overflows in a world. -/
def overflows (d : Desk) (server user : Snowflake) (admin : Bool) (w : World) : Bool :=
  (admin || (w.store.grant? server user .createCompetition).isSome) &&
    (w.store.cooldowns.check d.cooldown (server, user) w.clock).overflows

end Steward.Desk
