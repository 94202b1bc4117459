import Steward.Proofs.Cooldown
import Steward.Proofs.Desk.AloneCalls

/-!
# Time between creations

No user creates two competitions in one server within the cooldown. Every creation prunes the
records of all users, but a record that is pruned is one whose cooldown is over, and from then on it
stays over.

* `Change.cooldowns`: nothing but a creation touches the records.
* `Accounted`: a creation is on record, or its cooldown is over. Every step keeps it so.
* `creations_apart`: any two creations of a user in a server are the cooldown apart.
-/

namespace Steward.Desk

open Call Time

variable {d : Desk} {pace : Pace} {w w' : World} {e : Event} {es : List Event}
  {server owner : Snowflake} {admin : Bool} {r : Request} {asked checked made t : Instant}
  {c : Competition} {m : Member}

/-! ## What touches the records -/

theorem Change.cooldowns (h : Change d pace e w w') :
    w'.store.cooldowns = w.store.cooldowns ∨ ∃ server owner admin r asked checked made c,
      e = .call (.createCompetition server owner admin r) ∧
        Creation d pace w server owner admin r asked checked made c w' := by
  cases h with
  | create h => exact .inr ⟨_, _, _, _, _, _, _, _, rfl, h⟩
  | idle h => exact .inl (by rw [h.store])
  | cancel h | reschedule h => exact .inl (by rw [Store.writeCompetition_eq_ok h.stored])
  | add _ h => exact .inl (by rw [(Store.addParticipant_eq_ok h.stored).2])
  | accept _ h => exact .inl (by rw [Store.writeParticipant_eq_ok h.stored])
  | leave h => exact .inl (by rw [Store.writeParticipant_eq_ok h.stored])
  | grant h =>
    obtain ⟨_, hs⟩ := Store.addGrant_eq h.stored
    exact .inl (by rw [hs])
  | revoke h =>
    obtain ⟨_, hs⟩ := Store.removeGrant_eq h.stored
    exact .inl (by rw [hs])
  | enrol h =>
    obtain ⟨_, hs⟩ := Store.addPlayer_eq h
    exact .inl (by rw [hs])
  | insert => exact .inl rfl

/-! ## What stays on record -/

/-- The creation of a member at an instant is on record, or its cooldown is over. -/
structure Accounted (d : Desk) (m : Member) (t : Instant) (w : World) : Prop where
  shown : t.Shown
  clock : w.clock.Shown
  past : t ≤ w.clock
  counts : w.store.cooldowns.last? m = some t ∨ Cooldowns.retention d.cooldown ≤ w.clock.since t

/-- The instants at which a creation looks at the clock are shown by it, in this order. -/
theorem Creation.instants (h : Creation d .system w server owner admin r asked checked made c w')
    (hw : w.clock.Shown) : asked.Shown ∧ made.Shown ∧ w'.clock.Shown ∧
      w.clock ≤ asked ∧ asked ≤ made ∧ made ≤ w'.clock := by
  have hmade := Pace.system.trans h.then_checked h.then_made
  have hasked := h.before.2 hw
  exact ⟨hasked, hmade.2 hasked, h.after.2 (hmade.2 hasked), h.before.1, hmade.1, h.after.1⟩

theorem Creation.accounted (h : Creation d .system w server owner admin r asked checked made c w')
    (hw : w.clock.Shown) : Accounted d (server, owner) made w' := by
  obtain ⟨-, hmade, hw', -, -, hpast⟩ := h.instants hw
  refine ⟨hmade, hw', hpast, ?_⟩
  have hrecord := Cooldowns.last?_record_self w.store.cooldowns (server, owner) made
    (Cooldowns.retention d.cooldown)
  rw [h.stored]
  refine hrecord.imp_right fun hle => Int.le_trans hle ?_
  exact hmade.since_le_since hmade hw' hpast

/-- A creation is allowed only once the cooldown of the last one is over. -/
theorem Creation.waited_since
    (h : Creation d .system w server owner admin r asked checked made c w')
    (ha : Accounted d (server, owner) t w) : Cooldowns.retention d.cooldown ≤ made.since t := by
  obtain ⟨hasked, hmade, -, hpast, hle, -⟩ := h.instants ha.clock
  obtain hlast | hover := ha.counts
  · have hwaited := h.waited
    rw [hlast] at hwaited
    have hover := Cooldowns.retention_le_since_of_decide hwaited ha.shown hasked
      (Instant.le_trans ha.past hpast)
    exact Int.le_trans hover (ha.shown.since_le_since hasked hmade hle)
  · exact Int.le_trans hover
      (ha.shown.since_le_since ha.clock hmade (Instant.le_trans hpast hle))

theorem Step.accounted (h : Step d .system w e w') (ha : Accounted d m t w) :
    Accounted d m t w' := by
  obtain ⟨hle, hshown⟩ := h.clock_moves
  have hw' := hshown ha.clock
  have elapsed (u : Instant) (hu : u.Shown) (huw : u ≤ w'.clock)
      (hover : Cooldowns.retention d.cooldown ≤ u.since t) :
      Cooldowns.retention d.cooldown ≤ w'.clock.since t :=
    Int.le_trans hover (ha.shown.since_le_since hu hw' huw)
  refine ⟨ha.shown, hw', Instant.le_trans ha.past hle, ?_⟩
  obtain hsame | ⟨server, owner, _, _, _, _, made, _, -, hc⟩ := h.change.cooldowns
  · rw [hsame]
    exact ha.counts.imp_right (elapsed w.clock ha.clock hle)
  · obtain ⟨-, hmade, -, -, -, hmadeLe⟩ := hc.instants ha.clock
    by_cases hm : m = (server, owner)
    · subst hm
      exact .inr (elapsed made hmade hmadeLe (hc.waited_since ha))
    · obtain hlast | hover := ha.counts
      · rw [hc.stored]
        exact (Cooldowns.last?_record_of_ne hm hlast).imp_right (elapsed made hmade hmadeLe)
      · exact .inr (elapsed w.clock ha.clock hle hover)

theorem Run.accounted (h : Run d .system w es w') (ha : Accounted d m t w) :
    Accounted d m t w' := by
  induction h with
  | nil => exact ha
  | cons st _ ih => exact ih (st.accounted ha)

theorem Run.clock_shown (h : Run d .system w es w') (hw : w.clock.Shown) : w'.clock.Shown := by
  induction h with
  | nil => exact hw
  | cons st _ ih => exact ih (st.clock_moves.2 hw)

/-- On a system clock any two creations of a user in a server are at least the cooldown apart,
whatever happens before the first of them and between them. -/
theorem creations_apart {t : Instant} {w₁ w₂ w₃ : World} {es' : List Event} {admin' : Bool}
    {r' : Request} {v v' : CompetitionView} (ht : t.Shown)
    (before : Run d .system (World.fresh t) es w)
    (first : Script.Runs .system (ExceptT.run (createCompetition d server owner admin r)) w
      (.ok v) w₁)
    (between : Run d .system w₁ es' w₂)
    (second : Script.Runs .system (ExceptT.run (createCompetition d server owner admin' r')) w₂
      (.ok v') w₃) :
    Cooldowns.retention d.cooldown ≤ v'.competition.createdAt.since v.competition.createdAt := by
  obtain ⟨_, _, made, c, hc, hv⟩ :=
    createCompetition_does d .system w server owner admin r _ _ first
  obtain ⟨_, _, made', c', hc', hv'⟩ :=
    createCompetition_does d .system w₂ server owner admin' r' _ _ second
  rw [hv, hv', hc.row, hc'.row]
  have hw : w.clock.Shown := before.clock_shown ht
  exact hc'.waited_since (between.accounted (hc.accounted hw))

/-- Dates that are soon over. -/
def brief : Dates := .fixed (.ofSecond 10) (.ofSecond 20)

/-- Dates after all cooldowns. -/
def ahead : Dates := .fixed (.ofSecond 100) (.ofSecond 200)

/-- The world after a user has created a competition. -/
def outed : World := created (.ofLimits {}) (World.fresh (.ofSecond 0)) ⟨1⟩ ⟨2⟩ (outing brief)

/-- The world after another one has created one elsewhere, just before the first may again. -/
def outedTwice : World :=
  created (.ofLimits {}) { outed with clock := .ofSecond 59 } ⟨5⟩ ⟨4⟩ (outing ahead)

/-- What has happened between the two. -/
def relay : List Event :=
  [.clock (.ofSecond 59), .call (.createCompetition ⟨5⟩ ⟨4⟩ true (outing ahead)),
    .clock (.ofSecond 60)]

theorem runs_outed (pace : Pace) : ∃ v, Script.Runs pace
    (ExceptT.run (createCompetition (.ofLimits {}) ⟨1⟩ ⟨2⟩ true (outing brief)))
    (World.fresh (.ofSecond 0)) (.ok v) outed :=
  runs_outing (.ofLimits {}) pace (World.fresh (.ofSecond 0)) ⟨1⟩ ⟨2⟩ brief (by decide) (by decide)
    (by decide) (by decide) (by decide)

theorem run_relay : Run (.ofLimits {}) .system outed relay
    { outedTwice with clock := .ofSecond 60 } := by
  obtain ⟨v, elsewhere⟩ := runs_outing (.ofLimits {}) .system
    { outed with clock := .ofSecond 59 } ⟨5⟩ ⟨4⟩ ahead (by decide) (by decide) (by decide)
    (by decide) (by decide)
  have h₁ : Pace.system.moves (.ofSecond 0) (.ofSecond 59) :=
    ⟨by decide, fun _ => ⟨by decide, by decide, by decide⟩⟩
  have h₂ : Pace.system.moves (.ofSecond 59) (.ofSecond 60) :=
    ⟨by decide, fun _ => ⟨by decide, by decide, by decide⟩⟩
  exact .cons (.clock h₁) (.cons (.call elsewhere (by decide)) (.cons (.clock h₂) .nil))

theorem creations_apart_relay : ∃ (v v' : CompetitionView) (w : World),
    Script.Runs .system
      (ExceptT.run (createCompetition (.ofLimits {}) ⟨1⟩ ⟨2⟩ true (outing brief)))
      (World.fresh (.ofSecond 0)) (.ok v) outed ∧
    Script.Runs .system
      (ExceptT.run (createCompetition (.ofLimits {}) ⟨1⟩ ⟨2⟩ true (outing ahead)))
      { outedTwice with clock := .ofSecond 60 } (.ok v') w ∧
    Cooldowns.retention (ofLimits {}).cooldown ≤
      v'.competition.createdAt.since v.competition.createdAt := by
  obtain ⟨v, first⟩ := runs_outed .system
  obtain ⟨v', second⟩ := runs_outing (.ofLimits {}) .system
    { outedTwice with clock := .ofSecond 60 } ⟨1⟩ ⟨2⟩ ahead (by decide) (by decide) (by decide)
    (by decide) (by decide)
  have hshown : (Instant.ofSecond 0).Shown := ⟨by decide, by decide, by decide⟩
  exact ⟨v, v', _, first, second, creations_apart hshown .nil first run_relay second⟩

end Steward.Desk
