import Steward.Proofs.Desk.ParticipantCalls
import Steward.Proofs.Store.Runs
import Steward.Proofs.Store.Tables

/-!
# The preview of a join, and the join

One rule, `joinRefusal`, stands behind both when they run alone at the same instant: the preview
shows its text, and the join fails with it or succeeds.

* `alone_canJoin`, `alone_join_of_refusal`, `alone_join_of_free`: both, by that rule.
* `canJoin_iff_join`: so they agree, and neither writes anything when the rule speaks.
-/

namespace Steward.Desk

open Call Time

/-- The rule that keeps a player from joining, if there is one. -/
def joinRefusal (d : Desk) (w : World) (competition player : Int) : Option Refusal :=
  match w.store.competition? competition with
  | none => some (.competitionNotFound competition)
  | some c =>
    match w.store.player? player with
    | none => some (.playerNotFound player)
    | some _ => blockerAt d w.store c (w.store.participant? competition player) w.clock

variable {d : Desk} {w : World} {competition player : Int} {c : Competition} {r : Refusal}

/-! ## Parts of both calls -/

theorem alone_competitionEntity (id : Int) (w : World) :
    (competitionEntity id).alone w =
      match w.store.competition? id with
      | some c => (.ok c, w)
      | none => (.error (.notFound "Competition" (Text.decimalInt id)), w) := by
  rw [competitionEntity, alone_bind, alone_perform]
  simp only [World.perform]
  cases w.store.competition? id <;> rfl

theorem alone_ensurePlayer (player : Int) (w : World) :
    (ensurePlayer player).alone w =
      match w.store.player? player with
      | some _ => (.ok (), w)
      | none => (.error (.refusal (.playerNotFound player)), w) := by
  rw [ensurePlayer, alone_bind, alone_perform]
  simp only [World.perform]
  cases w.store.player? player <;> rfl

theorem alone_openNow (d : Desk) (c : Competition) (w : World) :
    (openNow d c).alone w = (.ok (checkOpen d c w.clock), w) := by
  unfold openNow
  split
  · next hc =>
    rw [alone_pure, checkOpen, if_pos hc]
  · rw [alone_bind, alone_perform]
    rfl

theorem alone_placesNow (c : Competition) (w : World) :
    (placesNow c).alone w = (.ok (checkPlaces c (w.store.countActive c.id)), w) := by
  rw [placesNow, alone_bind, alone_perform]
  rfl

theorem alone_joinBlocker (d : Desk) (c : Competition) (existing : Option Participant) (w : World) :
    (joinBlocker d c existing).alone w = (.ok (blockerAt d w.store c existing w.clock), w) := by
  rw [joinBlocker, alone_bind_ok (alone_openNow d c w), blockerAt]
  cases checkOpen d c w.clock with
  | error e => rfl
  | ok _ =>
    cases existing with
    | some p =>
      obtain ⟨_, _, standing, _, _, _, _⟩ := p
      cases standing <;> rfl
    | none =>
      simp only [Option.map_none]
      split
      · rfl
      · rw [alone_bind_ok (alone_placesNow c w)]
        cases checkPlaces c (w.store.countActive c.id) <;> rfl

/-! ## The two calls -/

/-- The preview writes nothing and shows the text of the rule. -/
theorem alone_canJoin (d : Desk) (w : World) (competition player : Int) :
    (canJoin d competition player).alone w =
      (.ok ⟨(joinRefusal d w competition player).map (·.message)⟩, w) := by
  rw [canJoin, alone_bind, alone_perform, joinRefusal]
  simp only [World.perform]
  cases w.store.competition? competition with
  | none => rfl
  | some c =>
    simp only
    rw [alone_bind, alone_perform]
    simp only [World.perform]
    cases w.store.player? player with
    | none => rfl
    | some p =>
      simp only
      rw [alone_bind, alone_perform]
      simp only [World.perform]
      rw [alone_bind_ok (alone_joinBlocker d c _ w)]
      rfl

/-- What is left of a join once the player's row was looked up. -/
theorem alone_join (hc : w.store.competition? competition = some c)
    (hp : (w.store.player? player).isSome) :
    (join d competition player).alone w =
      match blockerAt d w.store c (w.store.participant? competition player) w.clock with
      | some r => (.error (.refusal r), w)
      | none =>
        alone (match w.store.participant? competition player with
          | some p => writeMove (p.accept w.clock)
          | none => do
            check (← perform (.addParticipant (.join competition player w.clock)))
            return .join competition player w.clock) w := by
  have hentity : (competitionEntity competition).alone w = (.ok c, w) := by
    rw [alone_competitionEntity, hc]
  have hknown : (ensurePlayer player).alone w = (.ok (), w) := by
    obtain ⟨p, hp⟩ := Option.isSome_iff_exists.1 hp
    rw [alone_ensurePlayer, hp]
  rw [join, alone_bind_ok hentity, alone_bind_ok hknown, alone_bind, alone_perform]
  simp only [World.perform]
  rw [alone_bind_ok (alone_joinBlocker d c _ w)]
  cases blockerAt d w.store c (w.store.participant? competition player) w.clock with
  | some r => rfl
  | none =>
    simp only
    rw [alone_bind_ok (alone_perform .now w)]
    cases w.store.participant? competition player <;> rfl

/-- A join that the rule forbids writes nothing and fails with the rule. Only a missing competition
is reported in words of its own. -/
theorem alone_join_of_refusal (h : joinRefusal d w competition player = some r) :
    ∃ e, (join d competition player).alone w = (.error e, w) ∧
      ((w.store.competition? competition).isSome → e = .refusal r) := by
  unfold joinRefusal at h
  cases hc : w.store.competition? competition with
  | none =>
    refine ⟨.notFound "Competition" (Text.decimalInt competition), ?_, by simp⟩
    rw [join, alone_bind, alone_competitionEntity, hc]
  | some c =>
    refine ⟨.refusal r, ?_, fun _ => rfl⟩
    cases hp : w.store.player? player with
    | none =>
      simp only [hc, hp, Option.some.injEq] at h
      have hentity : (competitionEntity competition).alone w = (.ok c, w) := by
        rw [alone_competitionEntity, hc]
      rw [join, alone_bind_ok hentity, alone_bind, alone_ensurePlayer, hp, h]
    | some p =>
      simp only [hc, hp] at h
      rw [alone_join hc (by rw [hp]; rfl), h]

/-- A join that no rule forbids succeeds: the row that was found can be written, and where none was
found one can be added. -/
theorem alone_join_of_free (h : joinRefusal d w competition player = none) :
    ∃ p w', (join d competition player).alone w = (.ok p, w') := by
  unfold joinRefusal at h
  cases hc : w.store.competition? competition with
  | none => simp only [hc, reduceCtorEq] at h
  | some c =>
    cases hp : w.store.player? player with
    | none => simp only [hc, hp, reduceCtorEq] at h
    | some _ =>
      simp only [hc, hp] at h
      rw [alone_join hc (by rw [hp]; rfl), h]
      obtain ⟨-, ⟨q, hq, hi⟩ | ⟨hq, -⟩⟩ := blockerAt_eq_none h
      · obtain ⟨-, hk⟩ := Store.participant?_eq_some hq
        have hfound : (w.store.participant? q.competition q.player).isSome := by
          obtain ⟨rfl, rfl⟩ := Prod.mk.inj hk
          rw [hq]
          rfl
        obtain ⟨s', hs⟩ : ∃ s', w.store.writeParticipant
            { q with standing := .joined, joinedAt := some w.clock } = .ok s' :=
          ⟨_, Store.writeParticipant_of_isSome hfound⟩
        simp only [hq, accept_of_invited w.clock hi, writeMove, alone_bind, alone_perform,
          World.perform, hs]
        exact ⟨_, _, rfl⟩
      · obtain ⟨s', hs⟩ : ∃ s',
            w.store.addParticipant (.join competition player w.clock) = .ok s' :=
          ⟨_, Store.addParticipant_of_eq_none hq⟩
        simp only [hq, alone_bind, alone_perform, World.perform, hs]
        exact ⟨_, _, rfl⟩

/-! ## Agreement -/

/-- The preview writes nothing. It says yes where the join succeeds, and only there. Where it says
no the join fails and writes nothing, and unless the competition is missing, the preview has shown
the text of the join's setback. -/
theorem canJoin_iff_join (d : Desk) (w : World) (competition player : Int) :
    ∃ preview, (canJoin d competition player).alone w = (.ok preview, w) ∧
      (preview.canJoin = true ↔ ∃ p w', (join d competition player).alone w = (.ok p, w')) ∧
      (preview.canJoin = false → ∃ e, (join d competition player).alone w = (.error e, w) ∧
        ((w.store.competition? competition).isSome → preview.reason = some e.message)) := by
  refine ⟨_, alone_canJoin d w competition player, ?_⟩
  cases hr : joinRefusal d w competition player with
  | none =>
    have hjoins := alone_join_of_free hr
    refine ⟨⟨fun _ => hjoins, fun _ => rfl⟩, ?_⟩
    intro hno
    cases hno
  | some r =>
    obtain ⟨e, hfails, he⟩ := alone_join_of_refusal hr
    refine ⟨⟨?_, ?_⟩, ?_⟩
    · intro hyes
      cases hyes
    · rintro ⟨p, w', hjoins⟩
      rw [hfails] at hjoins
      cases hjoins
    · refine fun _ => ⟨e, hfails, fun hc => ?_⟩
      rw [he hc]
      rfl

end Steward.Desk
