import Steward.Proofs.Desk.CompetitionCalls
import Steward.Proofs.Desk.ParticipantCalls
import Steward.Proofs.Desk.Reads
import Steward.Proofs.Store.Tables

/-!
# Runs of the desk

`Command` lists the service calls. `Step` says what one event may leave: a call, a new player, a
competition put straight into its table, or a tick of the clock. `Run` is a sequence of steps. Each
of them has run to its end; a creation whose identifier overflows does not, and is no step.

* `call_does`: each call either fails and writes nothing, or makes one change.
* `Step.change`: each step has one of the effects that `Change` lists, or none.
* `Run.step_of_runs`: with fewer creations than there are identifiers, every call is a step.
* `failed_keeps_store`: what fails leaves the store exactly as it was.
* `Run.play`: the run that comes about when the clock stands still during calls.
* `Run.invariant`: what each step keeps holds after a run, and the tables are keyed throughout.
-/

namespace Steward.Desk

open Call Time

/-! ## Commands -/

/-- A service call. -/
inductive Command where
  | createCompetition (server owner : Snowflake) (admin : Bool) (r : Request)
  | getCompetition (id : Int)
  | competitionEntity (id : Int)
  | listCompetitions (server : Snowflake) (openOnly : Bool)
  | cancelCompetition (id : Int) (user : Snowflake) (admin : Bool)
  | updateDates (id : Int) (user : Snowflake) (admin : Bool) (dates : Dates)
  | addParticipant (competition player : Int) (standing : Standing) (invitedBy : Option Snowflake)
  | inviteParticipant (competition player : Int) (inviter : Snowflake)
  | acceptInvitation (competition player : Int)
  | removeParticipant (competition player : Int)
  | canJoin (competition player : Int)
  | join (competition player : Int)
  | listParticipants (competition : Int) (includeLeft : Bool)
  | activeCount (competition : Int)
  | grantPermission (server user : Snowflake) (permission : Permission) (by' : Snowflake)
  | revokePermission (server user : Snowflake) (permission : Permission)
  | hasPermission (server user : Snowflake) (permission : Permission)
  | listPermissions (server : Snowflake)
  | canCreateCompetition (server user : Snowflake) (admin : Bool)

namespace Command

/-- What a call answers. -/
abbrev Answer : Command → Type
  | createCompetition .. => CompetitionView
  | getCompetition .. => CompetitionView
  | competitionEntity .. => Competition
  | listCompetitions .. => List CompetitionView
  | cancelCompetition .. => CompetitionView
  | updateDates .. => CompetitionView
  | addParticipant .. => Participant
  | inviteParticipant .. => Participant
  | acceptInvitation .. => Participant
  | removeParticipant .. => Participant
  | canJoin .. => JoinPreview
  | join .. => Participant
  | listParticipants .. => List ParticipantView
  | activeCount .. => Nat
  | grantPermission .. => Grant
  | revokePermission .. => Bool
  | hasPermission .. => Bool
  | listPermissions .. => List Grant
  | canCreateCompetition .. => CreationPreview

/-- The call itself. -/
def call (d : Desk) : (c : Command) → Call c.Answer
  | createCompetition server owner admin r => d.createCompetition server owner admin r
  | getCompetition id => d.getCompetition id
  | competitionEntity id => Desk.competitionEntity id
  | listCompetitions server openOnly => d.listCompetitions server openOnly
  | cancelCompetition id user admin => d.cancelCompetition id user admin
  | updateDates id user admin dates => d.updateDates id user admin dates
  | addParticipant competition player standing invitedBy =>
    d.addParticipant competition player standing invitedBy
  | inviteParticipant competition player inviter => d.inviteParticipant competition player inviter
  | acceptInvitation competition player => d.acceptInvitation competition player
  | removeParticipant competition player => Desk.removeParticipant competition player
  | canJoin competition player => d.canJoin competition player
  | join competition player => d.join competition player
  | listParticipants competition includeLeft => Desk.listParticipants competition includeLeft
  | activeCount competition => Desk.activeCount competition
  | grantPermission server user permission by' => Desk.grantPermission server user permission by'
  | revokePermission server user permission => Desk.revokePermission server user permission
  | hasPermission server user permission => Desk.hasPermission server user permission
  | listPermissions server => Desk.listPermissions server
  | canCreateCompetition server user admin => d.canCreateCompetition server user admin

/-- The key of the participant that a call may add or change. -/
def row? : Command → Option (Int × Int)
  | addParticipant competition player _ _ | inviteParticipant competition player _
  | acceptInvitation competition player | removeParticipant competition player
  | join competition player => some (competition, player)
  | _ => none

/-- Whether a call only shows something. -/
def isLook : Command → Bool
  | getCompetition _ | competitionEntity _ | listCompetitions .. | canJoin .. | listParticipants ..
  | activeCount _ | hasPermission .. | listPermissions _ | canCreateCompetition .. => true
  | _ => false

theorem looks (d : Desk) {c : Command} (h : c.isLook = true) : Looks (c.call d) := by
  cases c with
  | getCompetition id => exact looks_getCompetition d id
  | competitionEntity id => exact looks_competitionEntity id
  | listCompetitions server openOnly => exact looks_listCompetitions d server openOnly
  | canJoin competition player => exact looks_canJoin d competition player
  | listParticipants competition includeLeft =>
    exact looks_listParticipants competition includeLeft
  | activeCount competition => exact looks_activeCount competition
  | hasPermission server user permission => exact looks_hasPermission server user permission
  | listPermissions server => exact looks_listPermissions server
  | canCreateCompetition server user admin => exact looks_canCreateCompetition d server user admin
  | _ => cases h

end Command

/-! ## Steps -/

/-- What may happen at the desk. -/
inductive Event where
  | call (c : Command)
  | enrol (server : Snowflake) (nickname : String) (account : Option Snowflake)
  | insert (draft : Competition.Draft)
  | clock (now : Instant)

/-- The world after a player was to be created. -/
def enrol (w : World) (server : Snowflake) (nickname : String) (account : Option Snowflake) :
    World :=
  match w.store.addPlayer server nickname account w.clock with
  | .ok (_, s) => { w with store := s }
  | .error _ => w

/-- The world after a competition was put into its table. -/
def insert (w : World) (draft : Competition.Draft) : World :=
  { w with store := (w.store.addCompetition draft w.clock).2 }

variable (d : Desk) (pace : Pace)

/-- What an event may leave. The counter of identifiers does not wrap: where it would, the creation
panics. -/
inductive Step : World → Event → World → Prop
  | call {c : Command} {w w' : World} {r : Except Setback c.Answer} :
      Script.Runs pace (ExceptT.run (c.call d)) w r w' → w.store.CountsUp w'.store →
        Step w (.call c) w'
  | enrol {server : Snowflake} {nickname : String} {account : Option Snowflake} {w : World} :
      Step w (.enrol server nickname account) (enrol w server nickname account)
  | insert {draft : Competition.Draft} {w : World} :
      w.store.CountsUp (insert w draft).store → Step w (.insert draft) (insert w draft)
  | clock {t : Instant} {w : World} : pace.moves w.clock t → Step w (.clock t) { w with clock := t }

/-- Events that happen one after the other. -/
inductive Run : World → List Event → World → Prop
  | nil {w : World} : Run w [] w
  | cons {w w' w'' : World} {e : Event} {es : List Event} :
      Step d pace w e w' → Run w' es w'' → Run w (e :: es) w''

/-- What an event has done to the world. -/
inductive Change : Event → World → World → Prop
  | idle {e : Event} {w w' : World} (h : w.Idle pace w') : Change e w w'
  | create {server owner : Snowflake} {admin : Bool} {r : Request} {asked checked made : Instant}
      {c : Competition} {w w' : World}
      (h : Creation d pace w server owner admin r asked checked made c w') :
      Change (.call (.createCompetition server owner admin r)) w w'
  | cancel {id : Int} {user : Snowflake} {admin : Bool} {c : Competition} {now : Instant}
      {w w' : World} (h : Cancellation pace w id user admin c now w') :
      Change (.call (.cancelCompetition id user admin)) w w'
  | reschedule {id : Int} {user : Snowflake} {admin : Bool} {dates : Dates} {c : Competition}
      {checked made : Instant} {w w' : World}
      (h : Rescheduling d pace w id user admin dates c checked made w') :
      Change (.call (.updateDates id user admin dates)) w w'
  | add {cmd : Command} {c : Competition} {checked now : Instant} {p : Participant}
      {w w' : World} (hrow : cmd.row? = some p.key) (h : Admission d pace w c checked now p w') :
      Change (.call cmd) w w'
  | accept {cmd : Command} {c : Competition} {checked now : Instant} {q : Participant}
      {competition player : Int} {w w' : World} (hrow : cmd.row? = some (competition, player))
      (h : Acceptance d pace w c checked now q competition player w') : Change (.call cmd) w w'
  | leave {q : Participant} {now : Instant} {competition player : Int} {w w' : World}
      (h : Departure pace w q now competition player w') :
      Change (.call (.removeParticipant competition player)) w w'
  | grant {server user : Snowflake} {permission : Permission} {by' : Snowflake} {now : Instant}
      {g : Grant} {w w' : World} (h : Granting pace w server user permission by' now g w') :
      Change (.call (.grantPermission server user permission by')) w w'
  | revoke {server user : Snowflake} {permission : Permission} {existed : Bool} {w w' : World}
      (h : Revocation pace w server user permission existed w') :
      Change (.call (.revokePermission server user permission)) w w'
  | enrol {server : Snowflake} {nickname : String} {account : Option Snowflake} {p : Player}
      {s : Store} {w : World}
      (h : w.store.addPlayer server nickname account w.clock = .ok (p, s)) :
      Change (.enrol server nickname account) w { w with store := s }
  | insert {draft : Competition.Draft} {w : World} : Change (.insert draft) w (insert w draft)

variable {d : Desk} {pace : Pace} {w w' : World} {e : Event} {es : List Event}

/-- A call that asks for nothing but reads changes nothing. -/
theorem does_of_looks (c : Command) (h : Looks (c.call d)) (w : World) :
    Does pace (c.call d) w fun _ w' => Change d pace (.call c) w w' :=
  (h.reads pace w).mono (fun _ _ hi => .idle hi) fun _ _ hi => hi

/-- Each call either fails and writes nothing, or makes one change. -/
theorem call_does (d : Desk) (pace : Pace) (w : World) (c : Command) :
    Does pace (c.call d) w fun _ w' => Change d pace (.call c) w w' := by
  cases c with
  | createCompetition server owner admin request =>
    refine (createCompetition_does d pace w server owner admin request).mono ?_ fun _ _ hi => hi
    rintro _ _ ⟨_, _, _, _, hc, -⟩
    exact .create hc
  | cancelCompetition id user admin =>
    refine (cancelCompetition_does d pace w id user admin).mono ?_ fun _ _ hi => hi
    rintro _ _ ⟨_, _, hc, -⟩
    exact .cancel hc
  | updateDates id user admin dates =>
    refine (updateDates_does d pace w id user admin dates).mono ?_ fun _ _ hi => hi
    rintro _ _ ⟨_, _, _, hc, -⟩
    exact .reschedule hc
  | addParticipant competition player standing invitedBy =>
    refine (addParticipant_does d pace w competition player standing invitedBy).mono ?_
      fun _ _ hi => hi
    rintro p _ ⟨_, _, _, ha, hcompetition, hplayer⟩
    have hk : p.key = (competition, player) := Prod.ext hcompetition hplayer
    exact .add (congrArg some hk.symm) ha
  | inviteParticipant competition player inviter =>
    refine (addParticipant_does d pace w competition player .invited (some inviter)).mono ?_
      fun _ _ hi => hi
    rintro p _ ⟨_, _, _, ha, hcompetition, hplayer⟩
    have hk : p.key = (competition, player) := Prod.ext hcompetition hplayer
    exact .add (congrArg some hk.symm) ha
  | acceptInvitation competition player =>
    refine (acceptInvitation_does d pace w competition player).mono ?_ fun _ _ hi => hi
    rintro _ _ ⟨_, _, _, _, ha, -⟩
    exact .accept rfl ha
  | removeParticipant competition player =>
    refine (removeParticipant_does pace w competition player).mono ?_ fun _ _ hi => hi
    rintro _ _ ⟨_, _, hd, -⟩
    exact .leave hd
  | join competition player =>
    refine (join_does d pace w competition player).mono ?_ fun _ _ hi => hi
    rintro _ _ ⟨_, _, _, ⟨_, ha, -⟩ | ⟨ha, rfl⟩⟩
    · exact .accept rfl ha
    · exact .add rfl ha
  | grantPermission server user permission by' =>
    refine (grantPermission_does pace w server user permission by').mono ?_ fun _ _ hi => hi
    rintro _ _ ⟨_, hg⟩
    exact .grant hg
  | revokePermission server user permission =>
    refine (revokePermission_does pace w server user permission).mono ?_ fun _ _ hi => hi
    intro _ _ hr
    exact .revoke hr
  | getCompetition | competitionEntity | listCompetitions | canJoin | listParticipants | activeCount
  | hasPermission | listPermissions | canCreateCompetition =>
    exact does_of_looks _ (Command.looks d rfl) w

theorem change_of_runs {c : Command} {r : Except Setback c.Answer}
    (h : Script.Runs pace (ExceptT.run (c.call d)) w r w') : Change d pace (.call c) w w' := by
  have hend := call_does d pace w c r w' h
  cases r with
  | ok _ => exact hend
  | error _ => exact .idle hend

theorem change_enrol (d : Desk) (pace : Pace) (w : World) (server : Snowflake) (nickname : String)
    (account : Option Snowflake) :
    Change d pace (.enrol server nickname account) w (enrol w server nickname account) := by
  unfold Desk.enrol
  split
  · next hp => exact .enrol hp
  · exact .idle (.refl pace w)

theorem Step.change (h : Step d pace w e w') : Change d pace e w w' := by
  cases h with
  | call hr _ => exact change_of_runs hr
  | enrol => exact change_enrol d pace w _ _ _
  | insert _ => exact .insert
  | clock ht => exact .idle ⟨rfl, ht⟩

/-- Time passes during a step as the pace allows. -/
theorem Step.clock_moves (h : Step d pace w e w') : pace.moves w.clock w'.clock := by
  cases h with
  | call hr _ => exact hr.clock
  | enrol =>
    unfold Desk.enrol
    split <;> exact pace.refl _
  | insert _ => exact pace.refl _
  | clock ht => exact ht

/-! ## Identifiers -/

/-- Whether an event may create a competition. -/
def Event.creates : Event → Bool
  | .call (.createCompetition ..) | .insert _ => true
  | _ => false

/-- No event but a creation takes an identifier, and a creation takes at most one. -/
theorem Change.lastId (h : Change d pace e w w') : w'.store.lastId = w.store.lastId ∨
    e.creates = true ∧ w'.store.lastId = w.store.lastId + 1 := by
  cases h with
  | idle h => exact .inl (by rw [h.store])
  | create h => exact .inr ⟨rfl, by rw [h.stored]; rfl⟩
  | insert => exact .inr ⟨rfl, rfl⟩
  | cancel h | reschedule h => exact .inl (by rw [Store.writeCompetition_eq_ok h.stored])
  | add _ h => exact .inl (by rw [(Store.addParticipant_eq_ok h.stored).2])
  | accept _ h => exact .inl (by rw [Store.writeParticipant_eq_ok h.stored])
  | leave h => exact .inl (by rw [Store.writeParticipant_eq_ok h.stored])
  | grant h => exact .inl (Store.SameRows.addGrant h.stored).lastId
  | revoke h => exact .inl (Store.SameRows.removeGrant h.stored).lastId
  | enrol h => exact .inl (Store.SameRows.addPlayer h).lastId

/-- The counter goes up where it has a number left. -/
theorem Change.countsUp (h : Change d pace e w w')
    (hleft : e.creates = true → w.store.lastId.toInt + 1 < Word.bound32) :
    w.store.CountsUp w'.store := by
  obtain hsame | ⟨hcreates, hnext⟩ := h.lastId
  · rw [Store.CountsUp, hsame]
    exact Int32.le_refl _
  · rw [Store.CountsUp, hnext]
    exact Store.le_add_one_of_lt (hleft hcreates)

theorem Step.countsUp (h : Step d pace w e w') : w.store.CountsUp w'.store := by
  cases h with
  | call _ hup | insert hup => exact hup
  | enrol => exact (change_enrol d pace w _ _ _).countsUp nofun
  | clock _ => exact Int32.le_refl _

theorem Run.lastId_le (h : Run d pace w es w') :
    w'.store.lastId.toInt ≤ w.store.lastId.toInt + es.countP Event.creates := by
  induction h with
  | nil => exact Int.le_add_of_nonneg_right (Int.natCast_nonneg _)
  | @cons u u' _ e es st _ ih =>
    rw [List.countP_cons]
    obtain hsame | ⟨hcreates, hnext⟩ := st.change.lastId
    · rw [hsame] at ih
      split <;> omega
    · have hup : u.store.lastId ≤ u.store.lastId + 1 := hnext ▸ st.countsUp
      rw [hnext, Store.toInt_add_one hup] at ih
      rw [if_pos hcreates]
      omega

/-- With fewer creations than there are identifiers, whatever a call comes to is a step. -/
theorem Run.step_of_runs {t : Instant} {c : Command} {r : Except Setback c.Answer}
    (h : Run d pace (World.fresh t) es w)
    (hfew : (es.countP Event.creates : Int) + 1 < Word.bound32)
    (hr : Script.Runs pace (ExceptT.run (c.call d)) w r w') : Step d pace w (.call c) w' := by
  refine .call hr ((change_of_runs hr).countsUp fun _ => ?_)
  have hlast := h.lastId_le
  have hzero : (World.fresh t).store.lastId.toInt = 0 := rfl
  omega

/-! ## Runs with a still clock -/

/-- The world that an event leaves when the clock stands still during calls. -/
def tick (d : Desk) (w : World) : Event → World
  | .call c => (Script.run (ExceptT.run (c.call d)) w).2
  | .enrol server nickname account => enrol w server nickname account
  | .insert draft => insert w draft
  | .clock t => { w with clock := t }

/-- Whether the clock is set as the pace allows, from `t` on. -/
def Paced (pace : Pace) : Instant → List Event → Prop
  | _, [] => True
  | t, .clock u :: es => pace.moves t u ∧ Paced pace u es
  | t, _ :: es => Paced pace t es

/-- What the clock shows after an event. -/
def Event.clockAfter (now : Instant) : Event → Instant
  | .clock t => t
  | .call _ | .enrol .. | .insert _ => now

@[simp] theorem tick_clock (d : Desk) (w : World) (e : Event) :
    (tick d w e).clock = e.clockAfter w.clock := by
  cases e with
  | call c => exact Script.run_clock _ w
  | enrol server nickname account =>
    show (Desk.enrol w server nickname account).clock = w.clock
    unfold Desk.enrol
    split <;> rfl
  | insert draft => rfl
  | clock t => rfl

theorem change_tick (d : Desk) (pace : Pace) (w : World) (c : Command) :
    Change d pace (.call c) w (tick d w (.call c)) := change_of_runs (Script.runs_run _ w)

theorem Step.tick (h : Paced pace w.clock [e])
    (hleft : e.creates = true → w.store.lastId.toInt + 1 < Word.bound32) :
    Step d pace w e (tick d w e) := by
  cases e with
  | call c => exact .call (Script.runs_run _ w) ((change_tick d pace w c).countsUp hleft)
  | enrol server nickname account => exact .enrol
  | insert draft =>
    have hchange : Change d pace (.insert draft) w (Desk.insert w draft) := .insert
    exact .insert (hchange.countsUp hleft)
  | clock t => exact .clock h.1

/-- Fewer events than there are identifiers left can be played. -/
theorem Run.play (h : Paced pace w.clock es)
    (hleft : w.store.lastId.toInt + es.countP Event.creates < Word.bound32) :
    Run d pace w es (es.foldl (tick d) w) := by
  induction es generalizing w with
  | nil => exact .nil
  | cons e es ih =>
    have hfirst : Paced pace w.clock [e] := by
      cases e with
      | clock t => exact ⟨h.1, trivial⟩
      | call | enrol | insert => trivial
    have hnext : Paced pace (Desk.tick d w e).clock es := by
      rw [tick_clock]
      cases e with
      | clock t => exact h.2
      | call | enrol | insert => exact h
    have hcount : ([e] ++ es).countP Event.creates = [e].countP Event.creates +
        es.countP Event.creates := List.countP_append
    rw [List.singleton_append] at hcount
    have st : Step d pace w e (Desk.tick d w e) := .tick hfirst fun he => by
      rw [hcount, List.countP_singleton, if_pos he] at hleft
      omega
    have hlast := (Run.cons st .nil).lastId_le
    exact .cons st (ih hnext (by omega))

/-- A competition of one place. -/
def onePlace : Competition.Draft :=
  { server := ⟨1⟩, owner := ⟨2⟩, channel := ⟨3⟩, title := "Climb", description := ""
    visibility := .open', criteria := .mostWinsChampion 1 none, maxParticipants := 1
    dates := .fixed (.ofSecond 10) (.ofSecond 20) }

/-- Two players want one place. The one who was invited takes it, and leaves it to the other. -/
def crowd : List Event :=
  [.insert onePlace, .enrol ⟨1⟩ "ann" none, .enrol ⟨1⟩ "bob" none,
    .call (.inviteParticipant 1 1 ⟨2⟩), .call (.join 1 2), .clock (.ofSecond 10),
    .call (.acceptInvitation 1 1), .call (.join 1 2), .call (.removeParticipant 1 1),
    .call (.join 1 2)]

/-- The world that they leave. -/
def crowded : World := crowd.foldl (tick (.ofLimits {})) (World.fresh (.ofSecond 0))

theorem run_crowd (pace : Pace) (h : pace.moves (.ofSecond 0) (.ofSecond 10)) :
    Run (.ofLimits {}) pace (World.fresh (.ofSecond 0)) crowd crowded := by
  exact Run.play ⟨h, trivial⟩ (by decide)

example : crowded.store.participants.map (·.standing) = [.left, .joined] := by decide

/-! ## Failures -/

/-- A call that fails has written nothing: all rows, the last identifier and the recorded creations
are as they were. Neither has a failed enrolment. -/
theorem failed_keeps_store (d : Desk) (pace : Pace) (w : World) :
    (∀ (c : Command) (e : Setback) (w' : World),
      Script.Runs pace (ExceptT.run (c.call d)) w (.error e) w' → w'.store = w.store) ∧
    ∀ (server : Snowflake) (nickname : String) (account : Option Snowflake) (r : Refusal),
      w.store.addPlayer server nickname account w.clock = .error r →
        enrol w server nickname account = w := by
  refine ⟨fun c e w' hr => ?_, fun server nickname account r hr => ?_⟩
  · have hidle : w.Idle pace w' := call_does d pace w c _ w' hr
    exact hidle.store
  · unfold enrol
    rw [hr]

example : Script.run (ExceptT.run (join (.ofLimits {}) 1 1)) crowded =
    (.error (.refusal .cannotRejoin), crowded) := by decide

/-! ## Invariants -/

theorem Creation.sameRows {server owner : Snowflake} {admin : Bool} {r : Request}
    {asked checked made : Instant} {c : Competition}
    (h : Creation d pace w server owner admin r asked checked made c w') :
    Store.SameRows (w.store.addCompetition (r.toDraft server owner) made).2 w'.store := by
  rw [h.stored]
  exact ⟨rfl, rfl, rfl⟩

/-- What is created stands behind all that was there. -/
theorem Creation.competitions {server owner : Snowflake} {admin : Bool} {r : Request}
    {asked checked made : Instant} {c : Competition}
    (h : Creation d pace w server owner admin r asked checked made c w') (hs : w.store.Sound)
    (hup : w.store.CountsUp w'.store) :
    w'.store.competitions = w.store.competitions ++ [c] := by
  rw [h.sameRows.competitions, h.row, (hs.last.addCompetition_eq (h.sameRows.countsUp_iff.1 hup)).2]

theorem Change.sound (h : Change d pace e w w') (hup : w.store.CountsUp w'.store)
    (hw : w.store.Sound) : w'.store.Sound := by
  cases h with
  | idle h => exact hw.congr (.of_eq h.store)
  | create h => exact (hw.addCompetition (h.sameRows.countsUp_iff.1 hup)).congr h.sameRows
  | cancel h => exact hw.writeCompetition h.stored
  | reschedule h => exact hw.writeCompetition h.stored
  | add _ h =>
    obtain ⟨hc, hid⟩ := Store.competition?_eq_some h.found
    exact hw.addParticipant h.stored hc hid
  | accept _ h => exact hw.writeParticipant h.stored
  | leave h => exact hw.writeParticipant h.stored
  | grant h => exact hw.congr (.addGrant h.stored)
  | revoke h => exact hw.congr (.removeGrant h.stored)
  | enrol h => exact hw.congr (.addPlayer h)
  | insert => exact hw.addCompetition hup

theorem Step.sound (h : Step d pace w e w') (hw : w.store.Sound) : w'.store.Sound :=
  h.change.sound h.countsUp hw

/-- What each step of a run keeps holds at its end. The tables are keyed throughout. -/
theorem Run.invariant {P : World → Prop} (h : Run d pace w es w') (hs : w.store.Sound) (h0 : P w)
    (keep : ∀ e ∈ es, ∀ {u u'}, u.store.Sound → P u → Step d pace u e u' → P u') :
    w'.store.Sound ∧ P w' := by
  induction h with
  | nil => exact ⟨hs, h0⟩
  | cons st _ ih =>
    have h1 := keep _ List.mem_cons_self hs h0 st
    exact ih (st.sound hs) h1 fun e he => keep e (List.mem_cons_of_mem _ he)

theorem Run.sound {t : Instant} (h : Run d pace (World.fresh t) es w) : w.store.Sound :=
  (h.invariant (P := fun _ => True) Store.sound_empty trivial fun _ _ _ _ _ _ _ => trivial).1

end Steward.Desk
