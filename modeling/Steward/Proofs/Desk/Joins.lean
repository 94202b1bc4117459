import Steward.Proofs.Desk.AloneCalls

/-!
# What a join stands for

A player who joins accepts an invitation or is added, and the call that joins has checks of its own
for both. They come to the same, in another order: run alone, a join is one of the two other calls.

* `alone_acceptInvitation`, `alone_addParticipant`: these calls, once the competition was looked up.
* `join_stands_for`: which of them a join is, and how it fails where it is neither.
-/

namespace Steward.Desk

open Call Time

variable {d : Desk} {w : World} {competition player : Int} {c : Competition} {p : Participant}

/-! ## The two other calls -/

/-- What is left of an acceptance once the competition was looked up. -/
theorem alone_acceptInvitation (hc : w.store.competition? competition = some c) :
    (acceptInvitation d competition player).alone w =
      match checkOpen d c w.clock with
      | .error e => (.error (.refusal e), w)
      | .ok _ =>
        match w.store.participant? competition player with
        | none => (.error (.refusal .notInvited), w)
        | some p =>
          if p.standing = .invited then (writeMove (p.accept w.clock)).alone w
          else (.error (.refusal .notInvited), w) := by
  have hentity : (competitionEntity competition).alone w = (.ok c, w) := by
    rw [alone_competitionEntity, hc]
  rw [acceptInvitation, alone_bind_ok hentity, alone_bind_ok (alone_openNow d c w), alone_bind,
    alone_check]
  cases checkOpen d c w.clock with
  | error e => rfl
  | ok _ =>
    simp only
    rw [alone_bind_ok (alone_perform (.participant? competition player) w)]
    simp only [World.perform]
    cases w.store.participant? competition player with
    | none => rfl
    | some p =>
      simp only
      split
      · rw [alone_now]
      · rfl

/-- What is left of adding a player as joined once the competition and the player were looked up. -/
theorem alone_addParticipant (hc : w.store.competition? competition = some c)
    (hp : (w.store.player? player).isSome) (invitedBy : Option Snowflake) :
    (addParticipant d competition player .joined invitedBy).alone w =
      match checkOpen d c w.clock with
      | .error e => (.error (.refusal e), w)
      | .ok _ =>
        match w.store.participant? competition player with
        | some p => (.error (.refusal (secondRow p.standing .joined)), w)
        | none =>
          match checkPlaces c (w.store.countActive c.id) with
          | .error e => (.error (.refusal e), w)
          | .ok _ =>
            alone (do
              check (← perform (.addParticipant (.join competition player w.clock)))
              return .join competition player w.clock) w := by
  have hentity : (competitionEntity competition).alone w = (.ok c, w) := by
    rw [alone_competitionEntity, hc]
  have hknown : (ensurePlayer player).alone w = (.ok (), w) := by
    obtain ⟨p, hp⟩ := Option.isSome_iff_exists.1 hp
    rw [alone_ensurePlayer, hp]
  have hrow : (newRow competition player .joined invitedBy).alone w =
      (.ok (.join competition player w.clock), w) := rfl
  rw [addParticipant, alone_bind_ok hentity, alone_bind_ok (alone_openNow d c w), alone_bind,
    alone_check]
  cases checkOpen d c w.clock with
  | error e => rfl
  | ok _ =>
    simp only
    rw [alone_bind_ok hknown, alone_bind_ok hrow, alone_bind, ensureNew,
      alone_bind_ok (alone_perform (.participant? competition player) w)]
    simp only [World.perform]
    cases w.store.participant? competition player with
    | some p => rfl
    | none =>
      simp only
      rw [alone_pure]
      simp only
      rw [alone_bind_ok (alone_placesNow c w), alone_bind, alone_check]
      cases checkPlaces c (w.store.countActive c.id) <;> rfl

/-! ## The join -/

/-- A player who is invited accepts. -/
theorem join_of_invited (hc : w.store.competition? competition = some c)
    (hp : (w.store.player? player).isSome)
    (hrow : w.store.participant? competition player = some p) (hs : p.standing = .invited) :
    (join d competition player).alone w = (acceptInvitation d competition player).alone w := by
  rw [alone_join hc hp, alone_acceptInvitation hc, hrow, blockerAt]
  cases checkOpen d c w.clock with
  | error e => rfl
  | ok _ => simp only [Option.map_some, hs, if_pos]

/-- A player with a row of another standing is refused as an addition would be. -/
theorem join_of_not_invited (hc : w.store.competition? competition = some c)
    (hp : (w.store.player? player).isSome)
    (hrow : w.store.participant? competition player = some p) (hs : p.standing ≠ .invited) :
    (join d competition player).alone w =
      (addParticipant d competition player .joined none).alone w := by
  rw [alone_join hc hp, alone_addParticipant hc hp, hrow, blockerAt]
  cases checkOpen d c w.clock with
  | error e => rfl
  | ok _ =>
    cases hstanding : p.standing with
    | invited => exact absurd hstanding hs
    | joined | left => simp only [Option.map_some, hstanding, secondRow]

/-- A player without a row is added, unless the competition is for the invited. -/
theorem join_of_no_row (hc : w.store.competition? competition = some c)
    (hp : (w.store.player? player).isSome)
    (hrow : w.store.participant? competition player = none) (hv : c.visibility ≠ .inviteOnly) :
    (join d competition player).alone w =
      (addParticipant d competition player .joined none).alone w := by
  rw [alone_join hc hp, alone_addParticipant hc hp, hrow, blockerAt]
  cases checkOpen d c w.clock with
  | error e => rfl
  | ok _ =>
    simp only [Option.map_none, if_neg hv]
    cases checkPlaces c (w.store.countActive c.id) <;> rfl

/-- A player without a row is kept out of a competition for the invited. -/
theorem join_of_inviteOnly (hc : w.store.competition? competition = some c)
    (hp : (w.store.player? player).isSome)
    (hrow : w.store.participant? competition player = none) (hv : c.visibility = .inviteOnly) :
    (join d competition player).alone w =
      (.error (.refusal (if c.isCancelled then .cancelled c.id
        else if c.hasEnded d.calendar w.clock then .ended c.id
        else .inviteOnly c.id)), w) := by
  rw [alone_join hc hp, hrow, blockerAt, checkOpen]
  by_cases hcancelled : c.isCancelled = true
  · simp only [if_pos hcancelled]
  · by_cases hended : c.hasEnded d.calendar w.clock = true
    · simp only [if_neg hcancelled, if_pos hended]
    · simp only [if_neg hcancelled, if_neg hended, Option.map_none, if_pos hv]

/-- With a competition and a player that exist, a join that runs alone has the result of another
call, whether it succeeds or fails, and leaves the same world. It accepts the invitation of a player
who is invited. In all other cases it adds the player, but that a player without a row is kept out
of a competition for the invited, and nothing is written. -/
theorem join_stands_for (d : Desk) (hc : w.store.competition? competition = some c)
    (hp : (w.store.player? player).isSome) :
    (∀ p, w.store.participant? competition player = some p → p.standing = .invited →
      (join d competition player).alone w = (acceptInvitation d competition player).alone w) ∧
    (∀ p, w.store.participant? competition player = some p →
      p.standing = .joined ∨ p.standing = .left →
      (join d competition player).alone w =
        (addParticipant d competition player .joined none).alone w) ∧
    (w.store.participant? competition player = none → c.visibility ≠ .inviteOnly →
      (join d competition player).alone w =
        (addParticipant d competition player .joined none).alone w) ∧
    (w.store.participant? competition player = none → c.visibility = .inviteOnly →
      (join d competition player).alone w =
        (.error (.refusal (if c.isCancelled then .cancelled competition
          else if c.hasEnded d.calendar w.clock then .ended competition
          else .inviteOnly competition)), w)) := by
  obtain ⟨-, hid⟩ := Store.competition?_eq_some hc
  refine ⟨fun p hrow hs => join_of_invited hc hp hrow hs, fun p hrow hs => ?_,
    fun hrow hv => join_of_no_row hc hp hrow hv, fun hrow hv => ?_⟩
  · refine join_of_not_invited hc hp hrow fun hinvited => ?_
    rw [hinvited] at hs
    rcases hs with hs | hs <;> cases hs
  · rw [join_of_inviteOnly hc hp hrow hv, hid]

/-- A competition of one place for the invited, to which Ann is invited, and one for all, in which
Bob has the place. -/
def guests : World :=
  [.insert { onePlace with visibility := .inviteOnly }, .insert onePlace, .enrol ⟨1⟩ "ann" none,
    .enrol ⟨1⟩ "bob" none, .call (.inviteParticipant 1 1 ⟨2⟩), .call (.join 2 2)].foldl
    (tick (.ofLimits {})) (World.fresh (.ofSecond 0))

theorem join_stands_for_guests :
    (join (.ofLimits {}) 1 1).alone guests = (acceptInvitation (.ofLimits {}) 1 1).alone guests ∧
      (join (.ofLimits {}) 1 2).alone guests = (.error (.refusal (.inviteOnly 1)), guests) ∧
      (join (.ofLimits {}) 2 1).alone guests =
        (addParticipant (.ofLimits {}) 2 1 .joined none).alone guests ∧
      (join (.ofLimits {}) 2 2).alone guests =
        (addParticipant (.ofLimits {}) 2 2 .joined none).alone guests := by
  have hclosed : guests.store.competition? 1 =
      some (({ onePlace with visibility := .inviteOnly } : Competition.Draft).toCompetition 1
        (.ofSecond 0)) := by decide
  have hopen : guests.store.competition? 2 = some (onePlace.toCompetition 2 (.ofSecond 0)) := by
    decide
  have hann : guests.store.participant? 1 1 = some (.invite 1 1 (some ⟨2⟩) (.ofSecond 0)) := by
    decide
  have hbob : guests.store.participant? 2 2 = some (.join 2 2 (.ofSecond 0)) := by decide
  refine ⟨?_, ?_, ?_, ?_⟩
  · exact (join_stands_for _ hclosed (by decide)).1 _ hann rfl
  · exact (join_stands_for _ hclosed (by decide)).2.2.2 (by decide) rfl
  · exact (join_stands_for _ hopen (by decide)).2.2.1 (by decide) (by decide)
  · exact (join_stands_for _ hopen (by decide)).2.1 _ hbob (.inl rfl)

end Steward.Desk
