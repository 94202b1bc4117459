import Steward.Proofs.Desk.Effect

/-!
# Effects of competition and permission calls

* `createCompetition_does`, `cancelCompetition_does`, `updateDates_does`: a call that does not fail
  creates, cancels or reschedules one competition.
* `grantPermission_does`, `revokePermission_does`: grants have no way to fail.
-/

namespace Steward.Desk

open Call Time

variable (d : Desk) (pace : Pace) (w : World)

/-! ## Competitions -/

theorem cancelCompetition_does (id : Int) (user : Snowflake) (admin : Bool) :
    Does pace (cancelCompetition d id user admin) w fun v w' => ∃ c now,
      Cancellation pace w id user admin c now w' ∧ v.competition = c.cancel now := by
  obtain ⟨s, t⟩ := w
  refine ensures_bind.2 (ensures_competitionEntity.2 fun t₁ h₁ => ?_)
  cases hc : s.competition? id with
  | none => exact ⟨rfl, h₁⟩
  | some c =>
    refine ensures_bind.2 (ensures_check.2 ?_)
    cases hm : checkManage c user admin with
    | error r => exact ⟨rfl, h₁⟩
    | ok _ =>
      refine ensures_ite.2 ⟨fun _ => ensures_bind.2 (ensures_refuse.2 ⟨rfl, h₁⟩), fun hl => ?_⟩
      rw [Bool.not_eq_true] at hl
      refine ensures_bind.2 (ensures_perform.2 fun now h₂ => ?_)
      refine ensures_bind.2 (ensures_perform.2 fun t₃ h₃ => ensures_bind.2
        (ensures_check_attempt.2 ?_))
      have hn := pace.trans h₁ h₂
      split
      · next s' hs =>
        refine ensures_viewNow.2 fun t₄ h₄ t₅ h₅ => ?_
        have hlate := pace.trans h₃ (pace.trans h₄ h₅)
        exact ⟨c, now, ⟨hc, hm, hl, ⟨hn, hlate⟩, hs⟩, rfl⟩
      · exact ⟨rfl, pace.trans hn h₃⟩

theorem updateDates_does (id : Int) (user : Snowflake) (admin : Bool) (dates : Dates) :
    Does pace (updateDates d id user admin dates) w fun v w' => ∃ c checked made,
      Rescheduling d pace w id user admin dates c checked made w' ∧
        v.competition = c.setDates dates made := by
  obtain ⟨s, t⟩ := w
  refine ensures_bind.2 (ensures_competitionEntity.2 fun t₁ h₁ => ?_)
  cases hc : s.competition? id with
  | none => exact ⟨rfl, h₁⟩
  | some c =>
    refine ensures_bind.2 (ensures_check.2 ?_)
    cases hm : checkManage c user admin with
    | error r => exact ⟨rfl, h₁⟩
    | ok _ =>
      refine ensures_bind.2 (ensures_perform.2 fun checked h₂ => ?_)
      have hk := pace.trans h₁ h₂
      refine ensures_ite.2 ⟨fun _ => ensures_bind.2 (ensures_refuse.2 ⟨rfl, hk⟩), fun hl => ?_⟩
      refine ensures_ite.2 ⟨fun _ => ensures_bind.2 (ensures_refuse.2 ⟨rfl, hk⟩), fun he => ?_⟩
      rw [Bool.not_eq_true] at hl he
      refine ensures_bind.2 (ensures_check.2 ?_)
      simp only [World.perform]
      cases hd : checkDates d dates checked with
      | error r => exact ⟨rfl, hk⟩
      | ok _ =>
        refine ensures_bind.2 (ensures_perform.2 fun made h₃ => ?_)
        refine ensures_bind.2 (ensures_perform.2 fun t₄ h₄ => ensures_bind.2
          (ensures_check_attempt.2 ?_))
        split
        · next s' hs =>
          refine ensures_viewNow.2 fun t₅ h₅ t₆ h₆ => ?_
          have hlate := pace.trans h₄ (pace.trans h₅ h₆)
          exact ⟨c, checked, made, ⟨hc, hm, hl, hk, he, hd, h₃, hlate, hs⟩, rfl⟩
        · exact ⟨rfl, pace.trans hk (pace.trans h₃ h₄)⟩

/-! ## Creation -/

section
variable {d : Desk} {pace : Pace} {s : Store} {t : Instant} {E : Setback → World → Prop}

theorem ensures_checkCooldown {server user : Snowflake} {Q : Cooldowns.Decision → World → Prop} :
    Ensures pace (checkCooldown d server user) ⟨s, t⟩ Q E ↔
      ∀ asked, pace.moves t asked → ∀ u, pace.moves asked u →
        Q (Cooldowns.decide d.cooldown (s.cooldowns.last? (server, user)) asked) ⟨s, u⟩ := by
  simp only [checkCooldown, ensures_bind, ensures_perform, ensures_pure, World.perform]

/-- A user who may create is an administrator or holds the permission, and has waited. -/
theorem ensures_canCreateCompetition {server user : Snowflake} {admin : Bool}
    {Q : CreationPreview → World → Prop}
    (hno : ∀ reason u, pace.moves t u → Q (.denied reason) ⟨s, u⟩)
    (hwait : ∀ reason secs u, pace.moves t u → Q (.wait reason secs) ⟨s, u⟩)
    (hyes : ∀ asked u, pace.moves t asked → pace.moves asked u →
      (admin = true ∨ (s.grant? server user .createCompetition).isSome) →
      Cooldowns.decide d.cooldown (s.cooldowns.last? (server, user)) asked = .allowed →
      Q .allowed ⟨s, u⟩) :
    Ensures pace (canCreateCompetition d server user admin) ⟨s, t⟩ Q E := by
  have decided : ∀ t₁, pace.moves t t₁ →
      (admin = true ∨ (s.grant? server user .createCompetition).isSome) →
      Ensures pace (do return previewOf (← checkCooldown d server user)) ⟨s, t₁⟩ Q E := by
    intro t₁ h₁ permitted
    refine ensures_bind.2 (ensures_checkCooldown.2 fun asked h₂ u h₃ => ensures_pure.2 ?_)
    have ha := pace.trans h₁ h₂
    cases hd : Cooldowns.decide d.cooldown (s.cooldowns.last? (server, user)) asked with
    | allowed => exact hyes asked u ha h₃ permitted hd
    | wait secs | overflow secs => exact hwait _ secs u (pace.trans ha h₃)
  refine ensures_ite.2 ⟨fun ha => ?_, fun _ => ?_⟩
  · exact decided t (pace.refl t) (.inl ha)
  · refine ensures_bind.2 (ensures_bind.2 (ensures_perform.2 fun t₁ h₁ => ensures_pure.2 ?_))
    refine ensures_ite.2 ⟨fun hg => ?_, fun _ => ?_⟩
    · exact decided t₁ h₁ (.inr hg)
    · exact ensures_pure.2 (hno _ t₁ h₁)

end

theorem createCompetition_does (server owner : Snowflake) (admin : Bool) (r : Request) :
    Does pace (createCompetition d server owner admin r) w fun v w' => ∃ asked checked made c,
      Creation d pace w server owner admin r asked checked made c w' ∧ v.competition = c := by
  obtain ⟨s, t⟩ := w
  refine ensures_bind.2 (ensures_canCreateCompetition (fun _ u h => ?_) (fun _ _ u h => ?_)
    fun asked u ha hu permitted waited => ?_)
  · exact ensures_bind.2 (ensures_refuse.2 ⟨rfl, h⟩)
  · exact ensures_bind.2 (ensures_refuse.2 ⟨rfl, h⟩)
  · refine ensures_bind.2 (ensures_mk_pure.2 ?_)
    cases hr : checkRequest d r with
    | error e => exact ⟨rfl, pace.trans ha hu⟩
    | ok _ =>
      refine ensures_bind.2 (ensures_perform.2 fun checked h₂ => ensures_bind.2
        (ensures_check.2 ?_))
      have hak := pace.trans hu h₂
      have hk := pace.trans ha hak
      simp only [World.perform]
      cases hd : checkDates d r.dates checked with
      | error e => exact ⟨rfl, hk⟩
      | ok _ =>
        refine ensures_bind.2 (ensures_perform.2 fun t₃ h₃ => ensures_bind.2 (ensures_check.2 ?_))
        simp only [World.perform]
        cases hm : checkRoom d owner
            ((s.competitionsOf server).filter fun c => (c.stageAt d.calendar checked).isOpen) with
        | error e => exact ⟨rfl, pace.trans hk h₃⟩
        | ok _ =>
          refine ensures_bind.2 (ensures_perform.2 fun made h₄ => ?_)
          refine ensures_bind.2 (ensures_perform.2 fun t₅ h₅ => ensures_pure.2 ?_)
          exact ⟨asked, checked, made, _,
            { permitted, before := ha, waited, sound := hr, then_checked := hak, dates := hd
              room := hm, then_made := pace.trans h₃ h₄, row := rfl, after := h₅, stored := rfl },
            rfl⟩

/-! ## Permissions -/

theorem grantPermission_does (server user : Snowflake) (permission : Permission)
    (by' : Snowflake) :
    Does pace (grantPermission server user permission by') w fun g w' => ∃ now,
      Granting pace w server user permission by' now g w' := by
  obtain ⟨s, t⟩ := w
  refine ensures_bind.2 (ensures_perform.2 fun now h₁ => ensures_perform.2 fun t₂ h₂ => ?_)
  exact ⟨now, ⟨h₁, h₂⟩, rfl⟩

theorem revokePermission_does (server user : Snowflake) (permission : Permission) :
    Does pace (revokePermission server user permission) w
      (Revocation pace w server user permission) := by
  obtain ⟨s, t⟩ := w
  exact ensures_perform.2 fun u hu => ⟨hu, rfl⟩

end Steward.Desk
