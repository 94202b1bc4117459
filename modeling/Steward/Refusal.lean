import Steward.Grant
import Steward.Participant

/-!
# Refusals

Why the rules about competitions refuse a request, or why it could not be carried out. Each refusal
belongs to one kind, has a stable code, and has a text.
-/

namespace Steward

/-- Why the store of recorded instants failed. -/
inductive CacheFault where
  | pool (detail : String)
  | corrupt (key detail : String)
deriving DecidableEq, Repr

/-- The text of a cache failure. -/
def CacheFault.message : CacheFault → String
  | pool detail => "Failed to create Redis pool: " ++ detail
  | corrupt key detail => "Corrupt cache entry for " ++ key ++ ": " ++ detail

/-- Why a request is refused or cannot be carried out. -/
inductive Refusal where
  | competitionNotFound (competition : Int)
  | playerNotFound (player : Int)
  | participantNotFound (competition player : Int)
  | validation (detail : String)
  | dates (detail : String)
  | criteria (detail : String)
  | missingPermission (permission : Permission)
  | notOwner
  | rateLimited (retryAfter : Int)
  | alreadyParticipant
  | alreadyInvited
  | alreadyCancelled (competition : Int)
  | cannotRejoin
  | full (places : Int)
  | inviteOnly (competition : Int)
  | cancelled (competition : Int)
  | ended (competition : Int)
  | notInvited
  | illegalMove (source target : Standing)
  | tooManyActive (most : Nat)
  | ownerHasActive
  | database (detail : String)
  | cache (detail : String)
  | internal (detail : String)
deriving DecidableEq, Repr

namespace Refusal

/-- The kinds of refusals. -/
inductive Kind where
  | notFound
  | validation
  | authorization
  | conflict
  | rule
  | internal
deriving DecidableEq, Repr

/-- Something that the request names is not there. -/
def isNotFound : Refusal → Bool
  | competitionNotFound _ | playerNotFound _ | participantNotFound _ _ => true
  | _ => false

/-- The request is not well formed. -/
def isValidation : Refusal → Bool
  | validation _ | dates _ | criteria _ => true
  | _ => false

/-- The user may not do this, or not yet. -/
def isAuthorization : Refusal → Bool
  | missingPermission _ | notOwner | rateLimited _ => true
  | _ => false

/-- It has been done before. -/
def isConflict : Refusal → Bool
  | alreadyParticipant | alreadyInvited | alreadyCancelled _ => true
  | _ => false

/-- A rule about competitions forbids it. -/
def isRule : Refusal → Bool
  | cannotRejoin | full _ | inviteOnly _ | cancelled _ | ended _ | notInvited | illegalMove _ _
  | tooManyActive _ | ownerHasActive => true
  | _ => false

/-- The user has no part in it, and the details are none of theirs. -/
def isInternal : Refusal → Bool
  | database _ | cache _ | internal _ => true
  | _ => false

/-- Whether a refusal is of a kind. -/
def isOf (r : Refusal) : Kind → Bool
  | .notFound => r.isNotFound
  | .validation => r.isValidation
  | .authorization => r.isAuthorization
  | .conflict => r.isConflict
  | .rule => r.isRule
  | .internal => r.isInternal

/-- The stable code. -/
def code : Refusal → String
  | competitionNotFound _ => "UNKNOWN_COMPETITION"
  | playerNotFound _ => "UNKNOWN_PLAYER"
  | participantNotFound _ _ => "UNKNOWN_PARTICIPANT"
  | validation _ => "VALIDATION_ERROR"
  | dates _ => "INVALID_DATES"
  | criteria _ => "INVALID_CRITERIA"
  | missingPermission _ => "MISSING_PERMISSIONS"
  | notOwner => "NOT_COMPETITION_OWNER"
  | rateLimited _ => "RATE_LIMITED"
  | alreadyParticipant => "ALREADY_PARTICIPANT"
  | alreadyInvited => "ALREADY_INVITED"
  | alreadyCancelled _ => "ALREADY_CANCELLED"
  | cannotRejoin => "CANNOT_REJOIN"
  | full _ => "COMPETITION_FULL"
  | inviteOnly _ => "INVITE_ONLY"
  | cancelled _ => "COMPETITION_CANCELLED"
  | ended _ => "COMPETITION_ENDED"
  | notInvited => "NOT_INVITED"
  | illegalMove _ _ => "INVALID_STATUS_TRANSITION"
  | tooManyActive _ => "TOO_MANY_ACTIVE_COMPETITIONS"
  | ownerHasActive => "OWNER_HAS_ACTIVE_COMPETITION"
  | database _ => "DATABASE_ERROR"
  | cache _ => "CACHE_ERROR"
  | internal _ => "INTERNAL_ERROR"

/-- The text of a refusal. -/
def message : Refusal → String
  | competitionNotFound c => "Competition " ++ Text.decimalInt c ++ " not found"
  | playerNotFound p => "Player " ++ Text.decimalInt p ++ " not found"
  | participantNotFound c p =>
    "Player " ++ Text.decimalInt p ++ " is not a participant in competition " ++ Text.decimalInt c
  | validation detail => "Validation error: " ++ detail
  | dates detail => "Invalid dates: " ++ detail
  | criteria detail => "Invalid criteria: " ++ detail
  | missingPermission p => "Missing permission: " ++ p.name
  | notOwner => "Only the competition owner or a server admin can do this"
  | rateLimited secs =>
    "You are creating competitions too quickly; try again in " ++ Text.decimalInt secs ++ " seconds"
  | alreadyParticipant => "Already a participant in this competition"
  | alreadyInvited => "Already invited to this competition"
  | alreadyCancelled c => "Competition " ++ Text.decimalInt c ++ " is already cancelled"
  | cannotRejoin => "Cannot rejoin a competition after leaving"
  | full places =>
    "Competition is full: reached maximum participants (" ++ Text.decimalInt places ++ ")"
  | inviteOnly c => "Competition " ++ Text.decimalInt c ++ " is invite-only"
  | cancelled c => "Competition " ++ Text.decimalInt c ++ " has been cancelled"
  | ended c => "Competition " ++ Text.decimalInt c ++ " has ended"
  | notInvited => "Player has no pending invitation to this competition"
  | illegalMove source target =>
    "Cannot change participant status from " ++ source.name ++ " to " ++ target.name
  | tooManyActive most =>
    "Server already has the maximum number of active competitions (" ++ Text.decimal most ++ ")"
  | ownerHasActive => "You already own an active competition in this server"
  | database detail => "Database error: " ++ detail
  | cache detail => "Cache error: " ++ detail
  | internal detail => "Internal error: " ++ detail

/-- The refusal that a cache failure ends in. -/
def ofCache (f : CacheFault) : Refusal := cache f.message

/-- The refusal of a participant's illegal move. -/
def ofIllegalMove (m : Participant.IllegalMove) : Refusal := illegalMove m.source m.target

end Refusal

end Steward
