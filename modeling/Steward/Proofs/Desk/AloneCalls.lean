import Steward.Proofs.Competition.Request
import Steward.Proofs.Desk.Join
import Steward.Proofs.Desk.Run
import Steward.Proofs.Store.Order

/-!
# Competition calls that run alone

What competition calls answer, and what they write, when no other call runs between their operations
and the clock stands still.

* `alone_preview`: what a user is told who wants to create.
* `alone_createCompetition`: what is left of a creation once all checks but the room have passed.
* `checkRoom_of_none_open`: there is room where no competition is open.
* `alone_listCompetitions`: a list is the views of the competitions that it shows.
* `alone_updateDates`: other dates are given where the competition is open.
-/

namespace Steward.Desk

open Call Time

variable {d : Desk} {w : World} {c : Competition} {server owner user : Snowflake} {admin : Bool}
  {r : Request} {dates : Dates}

/-! ## Parts of calls -/

theorem alone_now {α : Type} (f : Instant → Call α) (w : World) :
    alone (perform .now >>= f) w = alone (f w.clock) w := rfl

theorem alone_check (k : Except Refusal Unit) (w : World) :
    (check k).alone w =
      match k with
      | .ok _ => (.ok (), w)
      | .error e => (.error (.refusal e), w) := by
  cases k <;> rfl

theorem alone_viewNow (d : Desk) (c : Competition) (w : World) :
    (viewNow d c).alone w =
      (.ok (.of d.calendar w.clock c (w.store.countActive c.id : Nat)), w) := rfl

theorem alone_viewEach (d : Desk) (now : Instant) (cs : List Competition) (w : World) :
    (viewEach d now cs).alone w =
      (.ok (cs.map fun c => .of d.calendar now c (w.store.countActive c.id : Nat)), w) := by
  induction cs with
  | nil => rfl
  | cons c cs ih =>
    rw [viewEach, alone_bind_ok (alone_perform (.countActive c.id) w)]
    rw [alone_bind_ok (by simpa only [World.perform] using ih)]
    rfl

/-- What a user is told who wants to create. -/
def preview (d : Desk) (w : World) (server user : Snowflake) (admin : Bool) : CreationPreview :=
  if admin || (w.store.grant? server user .createCompetition).isSome then
    previewOf (Cooldowns.decide d.cooldown (w.store.cooldowns.last? (server, user)) w.clock)
  else .denied (Refusal.missingPermission .createCompetition).message

theorem alone_preview (d : Desk) (w : World) (server user : Snowflake) (admin : Bool) :
    (canCreateCompetition d server user admin).alone w =
      (.ok (preview d w server user admin), w) := by
  cases admin with
  | true => rfl
  | false =>
    have hheld : (hasPermission server user .createCompetition).alone w =
        (.ok (w.store.grant? server user .createCompetition).isSome, w) := rfl
    refine (alone_bind_ok hheld _).trans ?_
    unfold preview
    cases (w.store.grant? server user .createCompetition).isSome <;> rfl

theorem preview_of_decide {decision : Cooldowns.Decision}
    (permitted : admin = true ∨ (w.store.grant? server user .createCompetition).isSome)
    (decided : Cooldowns.decide d.cooldown (w.store.cooldowns.last? (server, user)) w.clock =
      decision) : preview d w server user admin = previewOf decision := by
  rw [preview, decided, if_pos (by simpa using permitted)]

theorem alone_listCompetitions (d : Desk) (server : Snowflake) (openOnly : Bool) (w : World) :
    (listCompetitions d server openOnly).alone w =
      (.ok (((w.store.competitionsOf server).filter fun c =>
          !openOnly || (c.stageAt d.calendar w.clock).isOpen).map fun c =>
        .of d.calendar w.clock c (w.store.countActive c.id : Nat)), w) := by
  rw [listCompetitions, alone_now, alone_bind_ok (alone_perform (.competitionsOf server) w)]
  exact alone_viewEach d w.clock _ w

/-- The open competitions of a server, as a creation counts them. -/
def opened (d : Desk) (w : World) (server : Snowflake) : List Competition :=
  (w.store.competitionsOf server).filter fun c => (c.stageAt d.calendar w.clock).isOpen

/-- The world after a creation. -/
def created (d : Desk) (w : World) (server owner : Snowflake) (r : Request) : World :=
  { w with store := { (w.store.addCompetition (r.toDraft server owner) w.clock).2 with
    cooldowns := w.store.cooldowns.record (server, owner) w.clock
      (Cooldowns.retention d.cooldown) } }

/-- A creation that is allowed goes by its request, its dates and the room there is, in this
order. -/
theorem alone_createCompetition_of_allowed (allowed : preview d w server owner admin = .allowed) :
    (createCompetition d server owner admin r).alone w =
      match checkRequest d r with
      | .error e => (.error e, w)
      | .ok _ =>
        match checkDates d r.dates w.clock with
        | .error e => (.error (.refusal e), w)
        | .ok _ =>
          match checkRoom d owner (opened d w server) with
          | .error e => (.error (.refusal e), w)
          | .ok _ =>
            let c := (r.toDraft server owner).toCompetition w.store.nextId w.clock
            (.ok (.of d.calendar w.clock c 0), created d w server owner r) := by
  have hallowed : (canCreateCompetition d server owner admin).alone w = (.ok .allowed, w) := by
    rw [alone_preview, allowed]
  rw [createCompetition, alone_bind_ok hallowed]
  refine (alone_bind (ExceptT.mk (pure (checkRequest d r))) _ w).trans ?_
  cases checkRequest d r with
  | error e => rfl
  | ok _ =>
    refine (alone_bind (check (checkDates d r.dates w.clock)) _ w).trans ?_
    rw [alone_check]
    cases checkDates d r.dates w.clock with
    | error e => rfl
    | ok _ =>
      refine (alone_bind (check (checkRoom d owner (opened d w server))) _ w).trans ?_
      rw [alone_check]
      cases checkRoom d owner (opened d w server) <;> rfl

/-- A creation that passes its other checks goes by the room there is. -/
theorem alone_createCompetition
    (permitted : admin = true ∨ (w.store.grant? server owner .createCompetition).isSome)
    (waited : Cooldowns.decide d.cooldown (w.store.cooldowns.last? (server, owner)) w.clock =
      .allowed)
    (sound : checkRequest d r = .ok ()) (hd : checkDates d r.dates w.clock = .ok ()) :
    (createCompetition d server owner admin r).alone w =
      match checkRoom d owner (opened d w server) with
      | .error e => (.error (.refusal e), w)
      | .ok _ =>
        let c := (r.toDraft server owner).toCompetition w.store.nextId w.clock
        (.ok (.of d.calendar w.clock c 0), created d w server owner r) := by
  rw [alone_createCompetition_of_allowed (preview_of_decide permitted waited), sound, hd]

/-- There is room where no competition of the server is open. -/
theorem checkRoom_of_none_open (hmax : 0 < d.limits.maxActive)
    (hnone : ∀ c ∈ w.store.competitions, c.server = server →
      (c.stageAt d.calendar w.clock).isOpen = false) :
    checkRoom d owner (opened d w server) = .ok () := by
  have hnil : opened d w server = [] := by
    refine List.filter_eq_nil_iff.2 fun c hc => ?_
    obtain ⟨hc, hserver⟩ := Store.mem_competitionsOf.1 hc
    rw [hnone c hc hserver]
    exact Bool.false_ne_true
  rw [hnil, checkRoom, List.length_nil, if_neg (Nat.not_le.2 hmax)]
  rfl

/-- A user who manages a competition may give it dates that pass their check, where it is open. -/
theorem alone_updateDates (found : w.store.competition? c.id = some c)
    (managed : checkManage c user admin = .ok ()) (hd : checkDates d dates w.clock = .ok ()) :
    (updateDates d c.id user admin dates).alone w =
      match checkOpen d c w.clock with
      | .error e => (.error (.refusal e), w)
      | .ok _ =>
        let c := c.setDates dates w.clock
        (.ok (.of d.calendar w.clock c (w.store.countActive c.id : Nat)),
          { w with store := { w.store with
            competitions := w.store.competitions.map (Store.written c) } }) := by
  have hentity : (competitionEntity c.id).alone w = (.ok c, w) := by
    rw [alone_competitionEntity, found]
  have hmanaged : (check (checkManage c user admin)).alone w = (.ok (), w) := by
    rw [managed, alone_check]
  have hdates : (check (checkDates d dates w.clock)).alone w = (.ok (), w) := by
    rw [hd, alone_check]
  rw [updateDates, alone_bind_ok hentity, alone_bind_ok hmanaged, alone_now]
  unfold checkOpen
  by_cases hc : c.isCancelled = true
  · rw [if_pos hc, if_pos hc]
    rfl
  · by_cases he : c.hasEnded d.calendar w.clock = true
    · rw [if_neg hc, if_neg hc, if_pos he, if_pos he]
      rfl
    · have hwrite := Store.writeCompetition_of_isSome (c := c.setDates dates w.clock)
        (Option.isSome_of_eq_some found)
      rw [if_neg hc, if_neg hc, if_neg he, if_neg he, alone_bind_ok hdates, alone_now,
        alone_bind_ok (alone_perform (.writeCompetition _) w)]
      simp only [World.perform, hwrite, World.attempt]
      exact alone_viewNow d _ _

/-! ## An outing -/

/-- A request that every desk accepts which allows two places. -/
def outing (dates : Dates) : Request :=
  { channel := ⟨3⟩, title := "Climb", description := "", visibility := .open'
    criteria := .mostWinsChampion 1 none, maxParticipants := 2, dates }

theorem checkRequest_outing (hplaces : 2 ≤ d.limits.maxParticipants) (dates : Dates) :
    checkRequest d (outing dates) = .ok () := by
  have hlength : 1 ≤ "Climb".length ∧ "Climb".length ≤ 100 := by decide
  have hblank : Text.blank "Climb" = false := by decide
  have hvalid : (outing dates).validate = .ok () :=
    Request.validate_eq_ok_iff.2 ⟨Nat.zero_le 500, Int.le_refl 2, hlength, hblank⟩
  exact checkRequest_eq_ok_iff.2 ⟨hvalid, hplaces, rfl⟩

/-- An administrator may create an outing where no competition is open and no cooldown runs. -/
theorem runs_outing (d : Desk) (pace : Pace) (w : World) (server owner : Snowflake) (dates : Dates)
    (hplaces : 2 ≤ d.limits.maxParticipants)
    (hmax : 0 < d.limits.maxActive)
    (waited : Cooldowns.decide d.cooldown (w.store.cooldowns.last? (server, owner)) w.clock =
      .allowed)
    (hd : checkDates d dates w.clock = .ok ())
    (hnone : ∀ c ∈ w.store.competitions, c.server = server →
      (c.stageAt d.calendar w.clock).isOpen = false) :
    ∃ v, Script.Runs pace (ExceptT.run (createCompetition d server owner true (outing dates))) w
      (.ok v) (created d w server owner (outing dates)) := by
  have hroom : checkRoom d owner (opened d w server) = .ok () := checkRoom_of_none_open hmax hnone
  have halone := alone_createCompetition (.inl (Eq.refl true)) waited
    (checkRequest_outing hplaces dates) hd
  rw [hroom] at halone
  exact ⟨_, runs_of_alone pace halone⟩

end Steward.Desk
