import Steward.Desk.Participants
import Steward.Proofs.Store.Runs

/-!
# Calls that only read

The calls that show something, and the previews, ask for nothing but reads (`Looks`), so whatever
they answer, the store stays as it was.
-/

namespace Steward.Desk

open Call Time

/-- A call that asks for nothing but reads. -/
abbrev Looks {α : Type} (c : Call α) : Prop := Call.Asks (·.isRead = true) c

variable (d : Desk)

/-! ## Competitions -/

theorem looks_competitionEntity (id : Int) : Looks (competitionEntity id) := by
  refine asks_bind (asks_perform rfl) fun found => ?_
  cases found with
  | some c => exact asks_pure c
  | none => exact asks_throw _

theorem looks_viewNow (c : Competition) : Looks (viewNow d c) :=
  asks_bind (asks_perform rfl) fun _ => asks_bind (asks_perform rfl) fun _ => asks_pure _

theorem looks_getCompetition (id : Int) : Looks (getCompetition d id) :=
  asks_bind (looks_competitionEntity id) fun c => looks_viewNow d c

theorem looks_viewEach (now : Time.Instant) (cs : List Competition) :
    Looks (viewEach d now cs) := by
  induction cs with
  | nil => exact asks_pure _
  | cons c cs ih =>
    exact asks_bind (asks_perform rfl) fun _ => asks_bind ih fun _ => asks_pure _

theorem looks_listCompetitions (server : Snowflake) (openOnly : Bool) :
    Looks (listCompetitions d server openOnly) :=
  asks_bind (asks_perform rfl) fun _ => asks_bind (asks_perform rfl) fun _ =>
    looks_viewEach d _ _

/-! ## Participants -/

theorem looks_openNow (c : Competition) : Looks (openNow d c) :=
  asks_ite (asks_pure _) (asks_bind (asks_perform rfl) fun _ => asks_pure _)

theorem looks_placesNow (c : Competition) : Looks (placesNow c) :=
  asks_bind (asks_perform rfl) fun _ => asks_pure _

theorem looks_joinBlocker (c : Competition) (existing : Option Participant) :
    Looks (joinBlocker d c existing) := by
  refine asks_bind (looks_openNow d c) fun answer => ?_
  cases answer with
  | error e => exact asks_pure _
  | ok _ =>
    cases existing with
    | none =>
      refine asks_ite (asks_pure _) (asks_bind (looks_placesNow c) fun places => ?_)
      cases places <;> exact asks_pure _
    | some p =>
      obtain ⟨_, _, standing, _, _, _, _⟩ := p
      cases standing <;> exact asks_pure _

theorem looks_canJoin (competition player : Int) : Looks (canJoin d competition player) := by
  refine asks_bind (asks_perform rfl) fun found => ?_
  cases found with
  | none => exact asks_pure _
  | some c =>
    refine asks_bind (asks_perform rfl) fun known => ?_
    cases known with
    | none => exact asks_pure _
    | some _ =>
      exact asks_bind (asks_perform rfl) fun existing =>
        asks_bind (looks_joinBlocker d c existing) fun _ => asks_pure _

theorem looks_viewParticipants (ps : List Participant) : Looks (viewParticipants ps) := by
  induction ps with
  | nil => exact asks_pure _
  | cons p ps ih =>
    exact asks_bind (asks_perform rfl) fun _ => asks_bind ih fun _ => asks_pure _

theorem looks_listParticipants (competition : Int) (includeLeft : Bool) :
    Looks (listParticipants competition includeLeft) :=
  asks_bind (looks_competitionEntity competition) fun _ => asks_bind (asks_perform rfl) fun _ =>
    looks_viewParticipants _

theorem looks_activeCount (competition : Int) : Looks (activeCount competition) :=
  asks_perform rfl

/-! ## Permissions -/

theorem looks_hasPermission (server user : Snowflake) (permission : Permission) :
    Looks (hasPermission server user permission) :=
  asks_bind (asks_perform rfl) fun _ => asks_pure _

theorem looks_listPermissions (server : Snowflake) : Looks (listPermissions server) :=
  asks_perform rfl

theorem looks_checkCooldown (server user : Snowflake) : Looks (checkCooldown d server user) :=
  asks_bind (asks_perform rfl) fun _ => asks_bind (asks_perform rfl) fun _ => asks_pure _

theorem looks_canCreateCompetition (server user : Snowflake) (admin : Bool) :
    Looks (canCreateCompetition d server user admin) := by
  have decided (permitted : Bool) : Looks (do
      if permitted then return previewOf (← checkCooldown d server user)
      else return CreationPreview.denied (Refusal.missingPermission .createCompetition).message) :=
    asks_ite (asks_bind (looks_checkCooldown d server user) fun _ => asks_pure _) (asks_pure _)
  exact asks_ite (asks_bind (asks_pure _) decided)
    (asks_bind (looks_hasPermission server user _) decided)

end Steward.Desk
