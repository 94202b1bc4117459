import Mathlib.Logic.ExistsUnique
import Steward.Failure

/-!
# What users are told of failures

A failed call passes through three layers: a refusal is one of the setbacks, and a setback becomes a
failure, from which the reply is made. Each layer has codes of its own and says on its own whether
the user is to see the text.

* `Refusal.isOf_iff`: every refusal is of one kind. `Refusal.status_eq_iff`: the status tells
  whether it is internal.
* `Setback.isUserError_toFailure`: setbacks and failures agree on what users see.
* `Setback.reply_of_blank_eq`: of two internal setbacks that differ in texts alone, the replies are
  the same.
* `internals_stay_hidden`: all of it together.
-/

namespace Steward

namespace Refusal

/-- The kind of a refusal. -/
def kind : Refusal → Kind
  | competitionNotFound _ | playerNotFound _ | participantNotFound _ _ => .notFound
  | validation _ | dates _ | criteria _ => .validation
  | missingPermission _ | notOwner | rateLimited _ => .authorization
  | alreadyParticipant | alreadyInvited | alreadyCancelled _ => .conflict
  | cannotRejoin | full _ | inviteOnly _ | cancelled _ | ended _ | notInvited | illegalMove _ _
  | tooManyActive _ | ownerHasActive => .rule
  | database _ | cache _ | internal _ => .internal

theorem isOf_eq (r : Refusal) (k : Kind) : r.isOf k = decide (r.kind = k) := by
  cases r <;> cases k <;> rfl

/-- No refusal is of two kinds, and none is of no kind. -/
theorem isOf_iff {r : Refusal} {k : Kind} : r.isOf k = true ↔ r.kind = k := by
  rw [isOf_eq, decide_eq_true_iff]

theorem status_eq (r : Refusal) : (Setback.refusal r).status =
    match r.kind with
    | .notFound => 404
    | .authorization => 403
    | .validation => 400
    | .conflict | .rule => 409
    | .internal => 500 := by
  cases r <;> rfl

theorem status_eq_iff {r : Refusal} :
    (Setback.refusal r).status = 500 ↔ r.isOf .internal = true := by
  rw [isOf_iff, status_eq]
  cases r.kind <;> decide

/-- The refusal with its texts emptied. -/
def blank : Refusal → Refusal
  | validation _ => validation ""
  | dates _ => dates ""
  | criteria _ => criteria ""
  | database _ => database ""
  | cache _ => cache ""
  | internal _ => internal ""
  | r => r

@[simp] theorem code_blank (r : Refusal) : r.blank.code = r.code := by cases r <;> rfl

@[simp] theorem isInternal_blank (r : Refusal) : r.blank.isInternal = r.isInternal := by
  cases r <;> rfl

end Refusal

namespace Failure

/-- The failure with its texts emptied. -/
def blank : Failure → Failure
  | validation _ => validation ""
  | notFound _ => notFound ""
  | conflict _ => conflict ""
  | permissionDenied _ => permissionDenied ""
  | rateLimited secs => rateLimited secs
  | database _ => database ""
  | cache _ => cache ""
  | externalTool _ => externalTool ""
  | internal _ => internal ""
  | refusal cause => refusal cause.blank
  | config _ => config ""

@[simp] theorem code_blank (f : Failure) : f.blank.code = f.code := by
  cases f with
  | refusal cause => exact cause.code_blank
  | _ => rfl

@[simp] theorem isUserError_blank (f : Failure) : f.blank.isUserError = f.isUserError := by
  cases f with
  | refusal cause => simp [blank, isUserError]
  | _ => rfl

theorem reply_of_internal {f : Failure} (h : f.isUserError = false) :
    f.reply = ⟨f.code, generic, true⟩ := by
  simp [reply, userMessage, h]

end Failure

namespace Setback

/-- The setback with its texts emptied. -/
def blank : Setback → Setback
  | refusal cause => refusal cause.blank
  | failure cause => failure cause.blank
  | notFound _ _ => notFound "" ""
  | validation _ => validation ""
  | internal _ => internal ""

theorem code_toFailure (e : Setback) : e.toFailure.code = e.code := by cases e <;> rfl

/-- The layers agree on what users see: the guards of the status leave to 500 what failures hide. -/
theorem isUserError_toFailure (e : Setback) : e.toFailure.isUserError = e.isUserFacing := by
  cases e with
  | refusal cause => cases cause <;> rfl
  | failure cause =>
    cases huser : cause.isUserError <;> simp [toFailure, isUserFacing, status, huser]
  | notFound resource id | validation detail | internal detail => rfl

@[simp] theorem code_blank (e : Setback) : e.blank.code = e.code := by
  cases e with
  | refusal cause => exact cause.code_blank
  | failure cause => exact cause.code_blank
  | notFound resource id | validation detail | internal detail => rfl

@[simp] theorem isUserFacing_blank (e : Setback) : e.blank.isUserFacing = e.isUserFacing := by
  rw [← isUserError_toFailure, ← isUserError_toFailure]
  cases e with
  | refusal cause => exact Failure.isUserError_blank (.refusal cause)
  | failure cause => exact cause.isUserError_blank
  | notFound resource id | validation detail | internal detail => rfl

theorem reply_of_internal {e : Setback} (h : e.isUserFacing = false) :
    e.toFailure.reply = ⟨e.code, Failure.generic, true⟩ := by
  rw [← isUserError_toFailure] at h
  rw [Failure.reply_of_internal h, code_toFailure]

theorem reply_of_blank_eq {e e' : Setback} (h : e.isUserFacing = false)
    (hblank : e'.blank = e.blank) :
    e'.toFailure.reply = e.toFailure.reply := by
  have hcode : e'.code = e.code := by rw [← code_blank, hblank, code_blank]
  have h' : e'.isUserFacing = false := by
    rw [← isUserFacing_blank, hblank, isUserFacing_blank, h]
  rw [reply_of_internal h, reply_of_internal h', hcode]

end Setback

/-- A setback and its failure have one code and agree on whether the user is to see the text, which
is where the status is below 500. The user is shown that text, or one fixed sentence; and where it
is the sentence, the reply is the same for all setbacks that differ in their texts alone. Every
refusal is of one kind, and the status is 500 for those of the internal kind and for no others. -/
theorem internals_stay_hidden (e : Setback) :
    e.toFailure.code = e.code ∧
      e.toFailure.isUserError = e.isUserFacing ∧ (e.isUserFacing = true ↔ e.status < 500) ∧
      e.toFailure.reply.message =
        (if e.isUserFacing then e.toFailure.message
          else "Something went wrong. Please try again later.") ∧
      (∀ e' : Setback, e.isUserFacing = false → e'.blank = e.blank →
        e'.toFailure.reply = e.toFailure.reply) ∧
      ∀ r : Refusal, (∃! k, r.isOf k = true) ∧
        ((Setback.refusal r).status = 500 ↔ r.isOf .internal = true) := by
  refine ⟨e.code_toFailure, e.isUserError_toFailure, decide_eq_true_iff, ?_, ?_, fun r => ⟨?_, ?_⟩⟩
  · rw [← e.isUserError_toFailure]
    rfl
  · exact fun e' hinternal hblank => Setback.reply_of_blank_eq hinternal hblank
  · exact ⟨r.kind, Refusal.isOf_iff.2 rfl, fun k hk => (Refusal.isOf_iff.1 hk).symm⟩
  · exact Refusal.status_eq_iff

/-- Whatever the database said, the reply is the same; a full competition is told as such. -/
theorem internals_stay_hidden_database :
    (Setback.failure (.refusal (.database "connection refused"))).toFailure.reply =
        (Setback.failure (.refusal (.database "deadlock"))).toFailure.reply ∧
      (Setback.refusal (.full 2)).toFailure.reply.message =
        (Failure.refusal (.full 2)).message := by
  obtain ⟨-, -, -, -, hsame, -⟩ :=
    internals_stay_hidden (.failure (.refusal (.database "deadlock")))
  obtain ⟨-, -, -, hshown, -, -⟩ := internals_stay_hidden (.refusal (.full 2))
  exact ⟨hsame (.failure (.refusal (.database "connection refused"))) (by decide) rfl, hshown⟩

end Steward
