import Steward.Desk.Participants
import Steward.Proofs.Store.Runs

/-!
# What calls do to the store

Each call of the desk either fails and writes nothing, or has one effect, which its `_does` lemma
names. An effect says what the call had found before it wrote, at which instants, and what it wrote:

* `Creation`, `Cancellation`, `Rescheduling`: competitions.
* `Admission`, `Acceptance`, `Departure`: participants.
* `Granting`, `Revocation`: grants.

All other calls are idle: they write nothing, whatever they answer.
-/

namespace Steward.Desk

open Call Time

/-! ## The effects -/

section
variable (d : Desk) (pace : Pace) (w : World)

/-- Competition `c` was created. The cooldown was looked at, then dates and room were, then the row
was written. -/
structure Creation (server owner : Snowflake) (admin : Bool) (r : Request)
    (asked checked made : Instant) (c : Competition) (w' : World) : Prop where
  permitted : admin = true ∨ (w.store.grant? server owner .createCompetition).isSome
  before : pace.moves w.clock asked
  waited : Cooldowns.decide d.cooldown (w.store.cooldowns.last? (server, owner)) asked = .allowed
  sound : checkRequest d r = .ok ()
  then_checked : pace.moves asked checked
  dates : checkDates d r.dates checked = .ok ()
  room : checkRoom d owner
    ((w.store.competitionsOf server).filter fun c => (c.stageAt d.calendar checked).isOpen) = .ok ()
  then_made : pace.moves checked made
  row : c = (r.toDraft server owner).toCompetition w.store.nextId made
  after : pace.moves made w'.clock
  stored : w'.store = { (w.store.addCompetition (r.toDraft server owner) made).2 with
    cooldowns := w.store.cooldowns.record (server, owner) made (Cooldowns.retention d.cooldown) }

/-- Competition `c` was cancelled. -/
structure Cancellation (id : Int) (user : Snowflake) (admin : Bool) (c : Competition)
    (now : Instant) (w' : World) : Prop where
  found : w.store.competition? id = some c
  managed : checkManage c user admin = .ok ()
  live : c.isCancelled = false
  during : w.During pace now w'
  stored : w.store.writeCompetition (c.cancel now) = .ok w'.store

/-- Competition `c` had not ended and was given other dates. -/
structure Rescheduling (id : Int) (user : Snowflake) (admin : Bool) (dates : Dates)
    (c : Competition) (checked made : Instant) (w' : World) : Prop where
  found : w.store.competition? id = some c
  managed : checkManage c user admin = .ok ()
  live : c.isCancelled = false
  before : pace.moves w.clock checked
  running : c.hasEnded d.calendar checked = false
  dates_ok : checkDates d dates checked = .ok ()
  then_made : pace.moves checked made
  after : pace.moves made w'.clock
  stored : w.store.writeCompetition (c.setDates dates made) = .ok w'.store

/-- Participant `p` was added to competition `c`, which was open and had a place. -/
structure Admission (c : Competition) (checked now : Instant) (p : Participant) (w' : World) :
    Prop where
  found : w.store.competition? p.competition = some c
  checked_during : w.During pace checked w'
  isOpen : checkOpen d c checked = .ok ()
  known : (w.store.player? p.player).isSome
  place : (w.store.countActive c.id : Int) < c.maxParticipants
  during : w.During pace now w'
  made : p = .join p.competition p.player now ∨ ∃ by', p = .invite p.competition p.player by' now
  stored : w.store.addParticipant p = .ok w'.store

/-- Participant `q`, invited to the open competition `c`, joined. -/
structure Acceptance (c : Competition) (checked now : Instant) (q : Participant)
    (competition player : Int) (w' : World) : Prop where
  found : w.store.competition? competition = some c
  checked_during : w.During pace checked w'
  isOpen : checkOpen d c checked = .ok ()
  row : w.store.participant? competition player = some q
  invited : q.standing = .invited
  during : w.During pace now w'
  stored : w.store.writeParticipant { q with standing := .joined, joinedAt := some now } =
    .ok w'.store

/-- Participant `q` left. -/
structure Departure (q : Participant) (now : Instant) (competition player : Int) (w' : World) :
    Prop where
  row : w.store.participant? competition player = some q
  active : q.standing ≠ .left
  during : w.During pace now w'
  stored : w.store.writeParticipant { q with standing := .left, leftAt := some now } = .ok w'.store

/-- A permission was granted, unless it was held already. -/
structure Granting (server user : Snowflake) (permission : Permission) (by' : Snowflake)
    (now : Instant) (g : Grant) (w' : World) : Prop where
  during : w.During pace now w'
  stored : w.store.addGrant ⟨server, user, permission, by', now⟩ = (g, w'.store)

/-- A permission was taken away, if it was held. -/
structure Revocation (server user : Snowflake) (permission : Permission) (existed : Bool)
    (w' : World) : Prop where
  clock : pace.moves w.clock w'.clock
  stored : w.store.removeGrant server user permission = (existed, w'.store)

end

/-! ## Parts of calls -/

section
variable {d : Desk} {pace : Pace} {s : Store} {t : Instant} {E : Setback → World → Prop}

theorem ensures_competitionEntity {id : Int} {Q : Competition → World → Prop} :
    Ensures pace (competitionEntity id) ⟨s, t⟩ Q E ↔ ∀ u, pace.moves t u →
      match s.competition? id with
      | some c => Q c ⟨s, u⟩
      | none => E (.notFound "Competition" (Text.decimalInt id)) ⟨s, u⟩ := by
  simp only [competitionEntity, ensures_bind, ensures_perform, World.perform]
  refine forall_congr' fun u => imp_congr_right fun _ => ?_
  cases s.competition? id with
  | none => exact ensures_throw
  | some c => exact ensures_pure

theorem ensures_viewNow {c : Competition} {Q : CompetitionView → World → Prop} :
    Ensures pace (viewNow d c) ⟨s, t⟩ Q E ↔ ∀ u, pace.moves t u → ∀ now, pace.moves u now →
      Q (.of d.calendar now c (s.countActive c.id : Nat)) ⟨s, now⟩ := by
  simp only [viewNow, ensures_bind, ensures_perform, ensures_pure, World.perform]

/-- A write that may be refused, and the check of its answer. -/
theorem ensures_check_attempt {w : World} {write : Except Refusal Store}
    {Q : Unit → World → Prop} :
    Ensures pace (check (w.attempt write).1) (w.attempt write).2 Q E ↔
      match write with
      | .ok s => Q () ⟨s, w.clock⟩
      | .error r => E (.refusal r) w := by
  cases write <;> exact ensures_check

end

end Steward.Desk
