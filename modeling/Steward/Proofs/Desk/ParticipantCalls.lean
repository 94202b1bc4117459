import Steward.Proofs.Desk.Effect

/-!
# Effects of participant calls

* `addParticipant_does`, `acceptInvitation_does`, `removeParticipant_does`, `join_does`: a call that
  does not fail admits a participant, accepts an invitation or takes a participant out.
* `blockerAt`: the rule that keeps a player from joining, for one look at the clock.
-/

namespace Steward.Desk

open Call Time

/-! ## Parts of calls -/

section
variable {d : Desk} {pace : Pace} {s : Store} {t : Instant} {E : Setback → World → Prop}

theorem ensures_ensurePlayer {player : Int} {Q : Unit → World → Prop} :
    Ensures pace (ensurePlayer player) ⟨s, t⟩ Q E ↔ ∀ u, pace.moves t u →
      match s.player? player with
      | some _ => Q () ⟨s, u⟩
      | none => E (.refusal (.playerNotFound player)) ⟨s, u⟩ := by
  simp only [ensurePlayer, ensures_bind, ensures_perform, World.perform]
  refine forall_congr' fun u => imp_congr_right fun _ => ?_
  cases s.player? player with
  | none => exact ensures_refuse
  | some p => exact ensures_pure

theorem ensures_ensureNew {competition player : Int} {wanted : Standing}
    {Q : Unit → World → Prop} :
    Ensures pace (ensureNew competition player wanted) ⟨s, t⟩ Q E ↔ ∀ u, pace.moves t u →
      match s.participant? competition player with
      | some q => E (.refusal (secondRow q.standing wanted)) ⟨s, u⟩
      | none => Q () ⟨s, u⟩ := by
  simp only [ensureNew, ensures_bind, ensures_perform, World.perform]
  refine forall_congr' fun u => imp_congr_right fun _ => ?_
  cases s.participant? competition player with
  | none => exact ensures_pure
  | some q => exact ensures_refuse

theorem ensures_newRow {competition player : Int} {standing : Standing}
    {invitedBy : Option Snowflake} {Q : Participant → World → Prop}
    (hj : ∀ u, pace.moves t u → Q (.join competition player u) ⟨s, u⟩)
    (hi : ∀ u, pace.moves t u → Q (.invite competition player invitedBy u) ⟨s, u⟩)
    (he : ∀ e, E e ⟨s, t⟩) :
    Ensures pace (newRow competition player standing invitedBy) ⟨s, t⟩ Q E := by
  cases standing with
  | joined => exact ensures_bind.2 (ensures_perform.2 fun u hu => ensures_pure.2 (hj u hu))
  | invited => exact ensures_bind.2 (ensures_perform.2 fun u hu => ensures_pure.2 (hi u hu))
  | left => exact ensures_throw.2 (he _)

theorem ensures_placesNow {c : Competition} {Q : Except Refusal Unit → World → Prop} :
    Ensures pace (placesNow c) ⟨s, t⟩ Q E ↔ ∀ u, pace.moves t u →
      Q (checkPlaces c (s.countActive c.id)) ⟨s, u⟩ := by
  simp only [placesNow, ensures_bind, ensures_perform, ensures_pure, World.perform]

/-- Of a cancelled competition the answer is the same at any instant. -/
theorem ensures_openNow {c : Competition} {Q : Except Refusal Unit → World → Prop}
    (h : ∀ u, pace.moves t u → Q (checkOpen d c u) ⟨s, u⟩) :
    Ensures pace (openNow d c) ⟨s, t⟩ Q E := by
  unfold openNow
  split
  · next hc =>
    have hnow := h t (pace.refl t)
    rw [checkOpen, if_pos hc] at hnow
    exact ensures_pure.2 hnow
  · simpa only [ensures_bind, ensures_perform, ensures_pure, World.perform] using h

theorem ensures_writeMove {move : Except Participant.IllegalMove Participant}
    {Q : Participant → World → Prop} :
    Ensures pace (writeMove move) ⟨s, t⟩ Q E ↔
      match move with
      | .error m => E (.refusal (.ofIllegalMove m)) ⟨s, t⟩
      | .ok p => ∀ u, pace.moves t u →
        match s.writeParticipant p with
        | .ok s' => Q p ⟨s', u⟩
        | .error r => E (.refusal r) ⟨s, u⟩ := by
  cases move with
  | error m => exact ensures_refuse
  | ok p =>
    refine ensures_bind.trans (ensures_perform.trans ?_)
    refine forall_congr' fun u => imp_congr_right fun _ => ?_
    refine ensures_bind.trans (ensures_check_attempt.trans ?_)
    cases s.writeParticipant p with
    | ok s' => exact ensures_pure
    | error r => exact Iff.rfl

end

/-! ## Rules of the checks -/

theorem checkPlaces_eq_ok {c : Competition} {active : Nat} (h : checkPlaces c active = .ok ()) :
    (active : Int) < c.maxParticipants := by
  unfold checkPlaces at h
  split at h
  · cases h
  · next hlt => exact Int.not_le.1 hlt

theorem accept_of_invited {p : Participant} (now : Instant) (h : p.standing = .invited) :
    p.accept now = .ok { p with standing := .joined, joinedAt := some now } := by
  rw [Participant.accept, h]; rfl

theorem leave_of_ne_left {p : Participant} (now : Instant) (h : p.standing ≠ .left) :
    p.leave now = .ok { p with standing := .left, leftAt := some now } := by
  rw [Participant.leave, if_pos]
  cases hs : p.standing with
  | joined | invited => rfl
  | left => exact absurd hs h

theorem leave_of_left {p : Participant} (now : Instant) (h : p.standing = .left) :
    p.leave now = .error ⟨.left, .left⟩ := by
  rw [Participant.leave, h]; rfl

/-! ## Participant calls -/

section
variable (d : Desk) (pace : Pace) (w : World)

theorem removeParticipant_does (competition player : Int) :
    Does pace (removeParticipant competition player) w fun p w' => ∃ q now,
      Departure pace w q now competition player w' ∧
        p = { q with standing := .left, leftAt := some now } := by
  obtain ⟨s, t⟩ := w
  refine ensures_bind.2 (ensures_perform.2 fun t₁ h₁ => ?_)
  simp only [World.perform]
  cases hq : s.participant? competition player with
  | none => exact ensures_refuse.2 ⟨rfl, h₁⟩
  | some q =>
    refine ensures_bind.2 (ensures_perform.2 fun now h₂ => ensures_writeMove.2 ?_)
    have hn := pace.trans h₁ h₂
    simp only [World.perform]
    by_cases hl : q.standing = .left
    · rw [leave_of_left now hl]
      exact ⟨rfl, hn⟩
    · rw [leave_of_ne_left now hl]
      intro t₃ h₃
      split
      · next s' hs => exact ⟨q, now, ⟨hq, hl, ⟨hn, h₃⟩, hs⟩, rfl⟩
      · exact ⟨rfl, pace.trans hn h₃⟩

theorem acceptInvitation_does (competition player : Int) :
    Does pace (acceptInvitation d competition player) w fun p w' => ∃ c checked q now,
      Acceptance d pace w c checked now q competition player w' ∧
        p = { q with standing := .joined, joinedAt := some now } := by
  obtain ⟨s, t⟩ := w
  refine ensures_bind.2 (ensures_competitionEntity.2 fun t₁ h₁ => ?_)
  cases hc : s.competition? competition with
  | none => exact ⟨rfl, h₁⟩
  | some c =>
    refine ensures_bind.2 (ensures_openNow fun checked h₂ => ensures_bind.2 (ensures_check.2 ?_))
    have hk := pace.trans h₁ h₂
    cases ho : checkOpen d c checked with
    | error r => exact ⟨rfl, hk⟩
    | ok _ =>
      refine ensures_bind.2 (ensures_perform.2 fun t₃ h₃ => ?_)
      have hq' := pace.trans hk h₃
      simp only [World.perform]
      cases hq : s.participant? competition player with
      | none => exact ensures_refuse.2 ⟨rfl, hq'⟩
      | some q =>
        by_cases hi : q.standing = .invited
        · simp only [if_pos hi]
          refine ensures_bind.2 (ensures_perform.2 fun now h₄ => ensures_writeMove.2 ?_)
          have hn := pace.trans hq' h₄
          simp only [World.perform, accept_of_invited now hi]
          intro t₅ h₅
          split
          · next s' hs =>
            have hk₅ := pace.trans h₃ (pace.trans h₄ h₅)
            exact ⟨c, checked, q, now, ⟨hc, ⟨hk, hk₅⟩, ho, hq, hi, ⟨hn, h₅⟩, hs⟩, rfl⟩
          · exact ⟨rfl, pace.trans hn h₅⟩
        · simp only [if_neg hi]
          exact ensures_refuse.2 ⟨rfl, hq'⟩

/-- What is left of adding a participant once its row `p` is made. -/
theorem ensures_addRow {s : Store} {t checked now : Instant} {competition player : Int}
    {standing : Standing} {c : Competition} {p : Participant}
    (hc : s.competition? competition = some c) (hk : pace.moves t checked)
    (ho : checkOpen d c checked = .ok ()) (hp : (s.player? player).isSome)
    (hn : pace.moves checked now)
    (hm : p = .join competition player now ∨ ∃ by', p = .invite competition player by' now) :
    Ensures pace (do
        ensureNew competition player standing
        check (← placesNow c)
        check (← perform (.addParticipant p))
        return p)
      ⟨s, now⟩
      (fun p w' => ∃ c checked now, Admission d pace ⟨s, t⟩ c checked now p w' ∧
        p.competition = competition ∧ p.player = player)
      (fun _ w' => World.Idle pace ⟨s, t⟩ w') := by
  -- Either way the row is that of the competition and the player, so both can be read off it.
  have hcp : p.competition = competition ∧ p.player = player := by
    obtain rfl | ⟨by', rfl⟩ := hm <;> exact ⟨rfl, rfl⟩
  obtain ⟨rfl, rfl⟩ := hcp
  have hkn := pace.trans hk hn
  refine ensures_bind.2 (ensures_ensureNew.2 fun t₁ h₁ => ?_)
  have hk₁ := pace.trans hkn h₁
  cases s.participant? p.competition p.player with
  | some q => exact ⟨rfl, hk₁⟩
  | none =>
    refine ensures_bind.2 (ensures_placesNow.2 fun t₂ h₂ => ensures_bind.2 (ensures_check.2 ?_))
    have hk₂ := pace.trans hk₁ h₂
    cases hf : checkPlaces c (s.countActive c.id) with
    | error r => exact ⟨rfl, hk₂⟩
    | ok _ =>
      refine ensures_bind.2 (ensures_perform.2 fun t₃ h₃ => ensures_bind.2
        (ensures_check_attempt.2 ?_))
      have hn₃ := pace.trans h₁ (pace.trans h₂ h₃)
      split
      · next s' hs =>
        have admitted : Admission d pace ⟨s, t⟩ c checked now p ⟨s', t₃⟩ :=
          { found := hc, checked_during := ⟨hk, pace.trans hn hn₃⟩, isOpen := ho, known := hp
            place := checkPlaces_eq_ok hf, during := ⟨hkn, hn₃⟩, made := hm, stored := hs }
        exact ensures_pure.2 ⟨c, checked, now, admitted, rfl, rfl⟩
      · exact ⟨rfl, pace.trans hk₂ h₃⟩

theorem addParticipant_does (competition player : Int) (standing : Standing)
    (invitedBy : Option Snowflake) :
    Does pace (addParticipant d competition player standing invitedBy) w fun p w' =>
      ∃ c checked now, Admission d pace w c checked now p w' ∧ p.competition = competition ∧
        p.player = player := by
  obtain ⟨s, t⟩ := w
  refine ensures_bind.2 (ensures_competitionEntity.2 fun t₁ h₁ => ?_)
  cases hc : s.competition? competition with
  | none => exact ⟨rfl, h₁⟩
  | some c =>
    refine ensures_bind.2 (ensures_openNow fun checked h₂ => ensures_bind.2 (ensures_check.2 ?_))
    have hk := pace.trans h₁ h₂
    cases ho : checkOpen d c checked with
    | error r => exact ⟨rfl, hk⟩
    | ok _ =>
      refine ensures_bind.2 (ensures_ensurePlayer.2 fun t₃ h₃ => ?_)
      cases hp : s.player? player with
      | none => exact ⟨rfl, pace.trans hk h₃⟩
      | some _ =>
        have known : (s.player? player).isSome := by rw [hp]; rfl
        refine ensures_bind.2 (ensures_newRow (fun now h₄ => ?_) (fun now h₄ => ?_) fun _ => ?_)
        · exact ensures_addRow d pace hc hk ho known (pace.trans h₃ h₄) (.inl rfl)
        · exact ensures_addRow d pace hc hk ho known (pace.trans h₃ h₄) (.inr ⟨invitedBy, rfl⟩)
        · exact ⟨rfl, pace.trans hk h₃⟩

end

/-! ## Joins -/

/-- The rule that keeps a player from joining when the clock is read at `now` and the places are
counted in `s`. -/
def blockerAt (d : Desk) (s : Store) (c : Competition) (existing : Option Participant)
    (now : Instant) : Option Refusal :=
  match checkOpen d c now with
  | .error e => some e
  | .ok () =>
    match existing.map Participant.standing with
    | some .joined => some .alreadyParticipant
    | some .left => some .cannotRejoin
    | some .invited => none
    | none =>
      if c.visibility = .inviteOnly then some (.inviteOnly c.id)
      else
        match checkPlaces c (s.countActive c.id) with
        | .error e => some e
        | .ok () => none

section
variable {d : Desk} {pace : Pace} {s : Store} {t : Instant} {E : Setback → World → Prop}
  {c : Competition} {existing : Option Participant}

theorem ensures_joinBlocker {Q : Option Refusal → World → Prop}
    (h : ∀ checked u, pace.moves t checked → pace.moves checked u →
      Q (blockerAt d s c existing checked) ⟨s, u⟩) :
    Ensures pace (joinBlocker d c existing) ⟨s, t⟩ Q E := by
  refine ensures_bind.2 (ensures_openNow fun checked hk => ?_)
  have hnow := h checked checked hk (pace.refl _)
  unfold blockerAt at h hnow
  cases ho : checkOpen d c checked with
  | error e =>
    rw [ho] at hnow
    exact ensures_pure.2 hnow
  | ok _ =>
    rw [ho] at hnow
    cases existing with
    | some q =>
      obtain ⟨_, _, standing, _, _, _, _⟩ := q
      cases standing <;> exact ensures_pure.2 hnow
    | none =>
      by_cases hv : c.visibility = .inviteOnly
      · simp only [Option.map_none, if_pos hv] at hnow ⊢
        exact ensures_pure.2 hnow
      · simp only [Option.map_none, if_neg hv]
        refine ensures_bind.2 (ensures_placesNow.2 fun u hu => ?_)
        have hlater := h checked u hk hu
        rw [ho] at hlater
        simp only [Option.map_none, if_neg hv] at hlater
        cases hf : checkPlaces c (s.countActive c.id) with
        | error e =>
          rw [hf] at hlater
          exact ensures_pure.2 hlater
        | ok _ =>
          rw [hf] at hlater
          exact ensures_pure.2 hlater

theorem blockerAt_eq_none {now : Instant} (h : blockerAt d s c existing now = none) :
    checkOpen d c now = .ok () ∧
      ((∃ q, existing = some q ∧ q.standing = .invited) ∨
        existing = none ∧ (s.countActive c.id : Int) < c.maxParticipants) := by
  unfold blockerAt at h
  cases ho : checkOpen d c now with
  | error e => rw [ho] at h; cases h
  | ok _ =>
    rw [ho] at h
    refine ⟨rfl, ?_⟩
    cases existing with
    | some q =>
      cases hs : q.standing with
      | invited => exact .inl ⟨q, rfl, hs⟩
      | joined | left => simp only [Option.map_some, hs, reduceCtorEq] at h
    | none =>
      refine .inr ⟨rfl, ?_⟩
      simp only [Option.map_none] at h
      split at h
      · cases h
      · cases hf : checkPlaces c (s.countActive c.id) with
        | error e => rw [hf] at h; cases h
        | ok _ => exact checkPlaces_eq_ok hf

end

/-- A player who joins accepts an invitation or is added. -/
theorem join_does (d : Desk) (pace : Pace) (w : World) (competition player : Int) :
    Does pace (join d competition player) w fun p w' => ∃ c checked now,
      (∃ q, Acceptance d pace w c checked now q competition player w' ∧
        p = { q with standing := .joined, joinedAt := some now }) ∨
      (Admission d pace w c checked now p w' ∧ p = .join competition player now) := by
  obtain ⟨s, t⟩ := w
  refine ensures_bind.2 (ensures_competitionEntity.2 fun t₁ h₁ => ?_)
  cases hc : s.competition? competition with
  | none => exact ⟨rfl, h₁⟩
  | some c =>
    refine ensures_bind.2 (ensures_ensurePlayer.2 fun t₂ h₂ => ?_)
    have hk₂ := pace.trans h₁ h₂
    cases hp : s.player? player with
    | none => exact ⟨rfl, hk₂⟩
    | some _ =>
      refine ensures_bind.2 (ensures_perform.2 fun t₃ h₃ => ?_)
      simp only [World.perform]
      refine ensures_bind.2 (ensures_joinBlocker fun checked t₄ hk h₄ => ?_)
      have hk := pace.trans hk₂ (pace.trans h₃ hk)
      have hk₄ := pace.trans hk h₄
      cases hb : blockerAt d s c (s.participant? competition player) checked with
      | some r => exact ensures_bind.2 (ensures_refuse.2 ⟨rfl, hk₄⟩)
      | none =>
        -- Nothing blocks: the player was invited, or has no row and there is a place.
        obtain ⟨ho, hfree⟩ := blockerAt_eq_none hb
        refine ensures_bind.2 (ensures_perform.2 fun now h₅ => ?_)
        have hn := pace.trans hk₄ h₅
        have hkn := pace.trans h₄ h₅
        simp only [World.perform]
        obtain ⟨q, hq, hi⟩ | ⟨hq, hplace⟩ := hfree
        · rw [hq]
          simp only [accept_of_invited now hi]
          refine ensures_writeMove.2 fun t₆ h₆ => ?_
          split
          · next s' hs =>
            exact ⟨c, checked, now, .inl ⟨q, ⟨hc, ⟨hk, pace.trans hkn h₆⟩, ho, hq, hi,
              ⟨hn, h₆⟩, hs⟩, rfl⟩⟩
          · exact ⟨rfl, pace.trans hn h₆⟩
        · rw [hq]
          refine ensures_bind.2 (ensures_perform.2 fun t₆ h₆ => ensures_bind.2
            (ensures_check_attempt.2 ?_))
          split
          · next s' hs =>
            have admitted : Admission d pace ⟨s, t⟩ c checked now (.join competition player now)
                ⟨s', t₆⟩ :=
              { found := hc, checked_during := ⟨hk, pace.trans hkn h₆⟩, isOpen := ho
                known := by rw [Participant.join, hp]; rfl
                place := hplace, during := ⟨hn, h₆⟩, made := .inl rfl, stored := hs }
            exact ensures_pure.2 ⟨c, checked, now, .inr ⟨admitted, rfl⟩⟩
          · exact ⟨rfl, pace.trans hn h₆⟩

end Steward.Desk
