import Steward.Refusal

/-!
# Failures and replies

How a failed request is answered. `Failure` is what any part of the program fails with, `Setback`
what a service call fails with; every setback is a failure. Users see the text of a failure that
they can do something about, and one fixed sentence for all others.
-/

namespace Steward

/-- What a part of the program fails with. -/
inductive Failure where
  | validation (detail : String)
  | notFound (resource : String)
  | conflict (detail : String)
  | permissionDenied (detail : String)
  | rateLimited (retryAfter : Int)
  | database (detail : String)
  | cache (detail : String)
  | externalTool (detail : String)
  | internal (detail : String)
  | refusal (cause : Refusal)
  | config (detail : String)
deriving DecidableEq, Repr

namespace Failure

/-- The stable code. -/
def code : Failure → String
  | validation _ => "VALIDATION_ERROR"
  | notFound _ => "NOT_FOUND"
  | conflict _ => "CONFLICT"
  | permissionDenied _ => "PERMISSION_DENIED"
  | rateLimited _ => "RATE_LIMITED"
  | database _ => "DATABASE_ERROR"
  | cache _ => "CACHE_ERROR"
  | externalTool _ => "EXTERNAL_TOOL_ERROR"
  | internal _ => "INTERNAL_ERROR"
  | refusal cause => cause.code
  | config _ => "CONFIG_ERROR"

/-- The text for the log. -/
def message : Failure → String
  | validation detail => "Validation error: " ++ detail
  | notFound resource => "Resource not found: " ++ resource
  | conflict detail => "Conflict: " ++ detail
  | permissionDenied detail => "Permission denied: " ++ detail
  | rateLimited secs => "Rate limited, retry in " ++ Text.decimalInt secs ++ "s"
  | database detail => "Database error: " ++ detail
  | cache detail => "Cache error: " ++ detail
  | externalTool detail => "External tool error: " ++ detail
  | internal _ => "Internal error"
  | refusal cause => cause.message
  | config detail => "Configuration error: " ++ detail

/-- Whether the user caused the failure. -/
def isUserError : Failure → Bool
  | validation _ | notFound _ | conflict _ | permissionDenied _ | rateLimited _ => true
  | database _ | cache _ | externalTool _ | internal _ | config _ => false
  | refusal cause => !cause.isInternal

/-- What users are told of a failure that they did not cause. -/
def generic : String := "Something went wrong. Please try again later."

/-- What the user is told. -/
def userMessage (f : Failure) : String := if f.isUserError then f.message else generic

end Failure

/-- The answer to a failed command. -/
structure Reply where
  code : String
  message : String
  /-- Only the user who gave the command sees the answer. -/
  ephemeral : Bool
deriving DecidableEq, Repr

instance : Json.Encode Reply :=
  ⟨fun r => .object [Json.field "code" r.code, Json.field "message" r.message,
    Json.field "ephemeral" r.ephemeral]⟩

/-- The answer to a failure. -/
def Failure.reply (f : Failure) : Reply := ⟨f.code, f.userMessage, true⟩

/-- What a service call fails with. -/
inductive Setback where
  | refusal (cause : Refusal)
  | failure (cause : Failure)
  | notFound (resource id : String)
  | validation (detail : String)
  | internal (detail : String)
deriving DecidableEq, Repr

namespace Setback

/-- The stable code. -/
def code : Setback → String
  | refusal cause => cause.code
  | failure cause => cause.code
  | notFound _ _ => "NOT_FOUND"
  | validation _ => "VALIDATION_ERROR"
  | internal _ => "INTERNAL_ERROR"

/-- The text for the log. -/
def message : Setback → String
  | refusal cause => cause.message
  | failure cause => cause.message
  | notFound resource id => resource ++ " not found: " ++ id
  | validation detail => "Validation error: " ++ detail
  | internal detail => "Internal error: " ++ detail

/-- The status class, as in HTTP. -/
def status : Setback → Nat
  | refusal cause =>
    if cause.isNotFound then 404
    else if cause.isAuthorization then 403
    else if cause.isValidation then 400
    else if cause.isConflict || cause.isRule then 409
    else 500
  | failure cause => if cause.isUserError then 400 else 500
  | notFound _ _ => 404
  | validation _ => 400
  | internal _ => 500

/-- Whether the user can mend the command. -/
def isUserFacing (s : Setback) : Bool := s.status < 500

/-- The failure that a setback is. -/
def toFailure : Setback → Failure
  | refusal cause => .refusal cause
  | failure cause => cause
  | notFound resource id => .notFound (resource ++ " " ++ id)
  | validation detail => .validation detail
  | internal detail => .internal detail

end Setback

end Steward
