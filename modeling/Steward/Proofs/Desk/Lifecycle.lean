import Steward.Proofs.Desk.Run

/-!
# The life of a participant

A participant's row is there for good. It starts out invited or joined, may go over from invited to
joined, and may leave once; who invited it and what happened when is written once.

* `Participant.Shaped`: the fields that a row of each standing has, its instants in order.
* `Participant.Becomes`: what may become of a row. Becoming is transitive, so what holds of one step
  holds of every run.
* `Change.recorded`, `Change.becomes`: every change keeps rows shaped, and the rows there were.
* `participants_endure`: both hold after and during every run whose clock never goes back.
-/

namespace Steward

open Time

/-- The moves from one standing to another. -/
def Standing.moves : List (Standing × Standing) :=
  [(.invited, .joined), (.invited, .left), (.joined, .left)]

namespace Participant

/-! ## Rows -/

/-- The instants of a row, in the order in which they come about. -/
def times (p : Participant) : List Instant := [p.invitedAt, p.joinedAt, p.leftAt].filterMap id

/-- The fields fit the standing. -/
structure Shaped (p : Participant) : Prop where
  invited : p.standing = .invited → p.invitedAt.isSome ∧ p.joinedAt = none ∧ p.leftAt = none
  joined : p.standing = .joined → p.joinedAt.isSome ∧ p.leftAt = none
  left : p.standing = .left → p.leftAt.isSome ∧ (p.invitedAt.isSome ∨ p.joinedAt.isSome)
  inviter : p.invitedBy.isSome → p.invitedAt.isSome
  order : p.times.Pairwise (· ≤ ·)

/-- The fields fit the standing, and nothing has happened after `now`. -/
structure Recorded (p : Participant) (now : Instant) : Prop where
  shaped : p.Shaped
  past : ∀ t ∈ p.times, t ≤ now

/-- What may become of a row. -/
structure Becomes (p q : Participant) : Prop where
  key : q.key = p.key
  standing : q.standing = p.standing ∨ (p.standing, q.standing) ∈ Standing.moves
  invitedBy : q.invitedBy = p.invitedBy
  invitedAt : q.invitedAt = p.invitedAt
  joinedAt : p.joinedAt.isSome → q.joinedAt = p.joinedAt
  leftAt : p.leftAt.isSome → q.leftAt = p.leftAt

variable {p q r : Participant} {now later : Instant}

theorem Recorded.mono (h : p.Recorded now) (hle : now ≤ later) : p.Recorded later :=
  ⟨h.shaped, fun t ht => Instant.le_trans (h.past t ht) hle⟩

theorem recorded_join (competition player : Int) (now : Instant) :
    (join competition player now).Recorded now where
  shaped :=
    { invited := nofun, joined := fun _ => ⟨rfl, rfl⟩, left := nofun, inviter := nofun
      order := List.pairwise_singleton _ _ }
  past := by
    intro t ht
    obtain rfl := List.mem_singleton.1 ht
    exact Instant.le_refl t

theorem recorded_invite (competition player : Int) (invitedBy : Option Snowflake) (now : Instant) :
    (invite competition player invitedBy now).Recorded now where
  shaped :=
    { invited := fun _ => ⟨rfl, rfl, rfl⟩, joined := nofun, left := nofun, inviter := fun _ => rfl
      order := List.pairwise_singleton _ _ }
  past := by
    intro t ht
    obtain rfl := List.mem_singleton.1 ht
    exact Instant.le_refl t

/-- A row with one more instant at its end. -/
theorem Recorded.order_append (h : p.Recorded now) (hle : now ≤ later)
    (ht : q.times = p.times ++ [later]) :
    q.times.Pairwise (· ≤ ·) ∧ ∀ t ∈ q.times, t ≤ later := by
  have hpast : ∀ t ∈ p.times, t ≤ later := fun t ht => Instant.le_trans (h.past t ht) hle
  rw [ht]
  constructor
  · refine List.pairwise_append.2 ⟨h.shaped.order, List.pairwise_singleton _ _, ?_⟩
    intro t hmem u hu
    rw [List.mem_singleton.1 hu]
    exact hpast t hmem
  · intro t hmem
    obtain hmem | hmem := List.mem_append.1 hmem
    · exact hpast t hmem
    · rw [List.mem_singleton.1 hmem]
      exact Instant.le_refl later

theorem Recorded.accept (h : p.Recorded now) (hs : p.standing = .invited) (hle : now ≤ later) :
    Recorded { p with standing := .joined, joinedAt := some later } later := by
  obtain ⟨-, hj, hl⟩ := h.shaped.invited hs
  have ht : times { p with standing := .joined, joinedAt := some later } = p.times ++ [later] := by
    unfold times
    rw [hj, hl]
    cases p.invitedAt <;> rfl
  obtain ⟨horder, hpast⟩ := h.order_append hle ht
  exact
    { shaped :=
        { invited := nofun, joined := fun _ => ⟨rfl, hl⟩, left := nofun
          inviter := h.shaped.inviter, order := horder }
      past := hpast }

theorem Shaped.leftAt_of_ne_left (h : p.Shaped) (hs : p.standing ≠ .left) : p.leftAt = none := by
  cases hp : p.standing with
  | invited => exact (h.invited hp).2.2
  | joined => exact (h.joined hp).2
  | left => exact absurd hp hs

theorem Recorded.leave (h : p.Recorded now) (hs : p.standing ≠ .left) (hle : now ≤ later) :
    Recorded { p with standing := .left, leftAt := some later } later := by
  -- A row that has not left yet has no last instant, so the new one comes after all others.
  have hl := h.shaped.leftAt_of_ne_left hs
  have ht : times { p with standing := .left, leftAt := some later } = p.times ++ [later] := by
    unfold times
    rw [hl]
    cases p.invitedAt <;> cases p.joinedAt <;> rfl
  have hcame : p.invitedAt.isSome ∨ p.joinedAt.isSome := by
    cases hp : p.standing with
    | invited => exact .inl (h.shaped.invited hp).1
    | joined => exact .inr (h.shaped.joined hp).1
    | left => exact absurd hp hs
  obtain ⟨horder, hpast⟩ := h.order_append hle ht
  exact
    { shaped :=
        { invited := nofun, joined := nofun, left := fun _ => ⟨rfl, hcame⟩
          inviter := h.shaped.inviter, order := horder }
      past := hpast }

/-! ## Becoming -/

theorem Becomes.refl (p : Participant) : p.Becomes p where
  key := rfl
  standing := .inl rfl
  invitedBy := rfl
  invitedAt := rfl
  joinedAt _ := rfl
  leftAt _ := rfl

theorem Becomes.trans (h : p.Becomes q) (k : q.Becomes r) : p.Becomes r where
  key := k.key.trans h.key
  standing := by
    have hpq := h.standing
    have hqr := k.standing
    revert hpq hqr
    cases p.standing <;> cases q.standing <;> cases r.standing <;> decide
  invitedBy := k.invitedBy.trans h.invitedBy
  invitedAt := k.invitedAt.trans h.invitedAt
  joinedAt hp := by
    have hq := h.joinedAt hp
    exact (k.joinedAt (by rw [hq]; exact hp)).trans hq
  leftAt hp := by
    have hq := h.leftAt hp
    exact (k.leftAt (by rw [hq]; exact hp)).trans hq

theorem Shaped.becomes_accept (h : p.Shaped) (hs : p.standing = .invited) (now : Instant) :
    p.Becomes { p with standing := .joined, joinedAt := some now } where
  key := rfl
  standing := by rw [hs]; exact .inr (.head _)
  invitedBy := rfl
  invitedAt := rfl
  joinedAt hj := by
    rw [(h.invited hs).2.1] at hj
    cases hj
  leftAt _ := rfl

theorem Shaped.becomes_leave (h : p.Shaped) (hs : p.standing ≠ .left) (now : Instant) :
    p.Becomes { p with standing := .left, leftAt := some now } where
  key := rfl
  standing := by
    cases hp : p.standing with
    | invited => exact .inr (.tail _ (.head _))
    | joined => exact .inr (.tail _ (.tail _ (.head _)))
    | left => exact absurd hp hs
  invitedBy := rfl
  invitedAt := rfl
  joinedAt _ := rfl
  leftAt hl := by
    rw [h.leftAt_of_ne_left hs] at hl
    cases hl

end Participant

namespace Desk

open Call

/-! ## Tables of rows -/

/-- Every row is recorded before the clock. -/
def AllRecorded (w : World) : Prop := ∀ p ∈ w.store.participants, p.Recorded w.clock

/-- Every row of `s` is one of `s'`, whatever it has become. -/
def Endures (s s' : Store) : Prop :=
  ∀ p ∈ s.participants, ∃ q ∈ s'.participants, p.Becomes q

variable {d : Desk} {s s' s'' : Store} {w w' : World} {e : Event} {es : List Event}
  {p q : Participant}

theorem Endures.refl (s : Store) : Endures s s := fun p hp => ⟨p, hp, .refl p⟩

theorem Endures.trans (h : Endures s s') (k : Endures s' s'') : Endures s s'' := by
  intro p hp
  obtain ⟨q, hq, hpq⟩ := h p hp
  obtain ⟨r, hr, hqr⟩ := k q hq
  exact ⟨r, hr, hpq.trans hqr⟩

theorem endures_of_eq (h : s'.participants = s.participants) : Endures s s' := by
  intro p hp
  rw [← h] at hp
  exact ⟨p, hp, .refl p⟩

theorem endures_addParticipant (h : s.addParticipant p = .ok s') : Endures s s' := by
  obtain ⟨-, rfl⟩ := Store.addParticipant_eq_ok h
  exact fun q hq => ⟨q, List.mem_append_left _ hq, .refl q⟩

theorem endures_writeParticipant (hs : s.Sound) (h : s.writeParticipant p = .ok s')
    (hq : q ∈ s.participants) (hb : q.Becomes p) : Endures s s' := by
  rw [Store.writeParticipant_eq_ok h]
  intro r hr
  refine ⟨Store.replaced p r, List.mem_map_of_mem hr, ?_⟩
  by_cases hk : r.key = p.key
  · rw [Store.replaced_of_eq hk, hs.participant_eq hr hq (hk.trans hb.key)]
    exact hb
  · rw [Store.replaced_of_ne hk]
    exact .refl r

theorem AllRecorded.of_eq (h : AllRecorded w) (hp : w'.store.participants = w.store.participants)
    (hle : w.clock ≤ w'.clock) : AllRecorded w' := by
  intro p hmem
  rw [hp] at hmem
  exact (h p hmem).mono hle

theorem AllRecorded.addParticipant (h : AllRecorded w)
    (ha : w.store.addParticipant p = .ok w'.store) (hp : p.Recorded w'.clock)
    (hle : w.clock ≤ w'.clock) : AllRecorded w' := by
  obtain ⟨-, hs⟩ := Store.addParticipant_eq_ok ha
  intro q hq
  rw [hs] at hq
  obtain hq | hq := List.mem_append.1 hq
  · exact (h q hq).mono hle
  · obtain rfl := List.mem_singleton.1 hq
    exact hp

theorem AllRecorded.writeParticipant (h : AllRecorded w)
    (ha : w.store.writeParticipant p = .ok w'.store) (hp : p.Recorded w'.clock)
    (hle : w.clock ≤ w'.clock) : AllRecorded w' := by
  have hs := Store.writeParticipant_eq_ok ha
  intro q hq
  rw [hs] at hq
  obtain ⟨r, hr, rfl⟩ := List.mem_map.1 hq
  by_cases hk : r.key = p.key
  · rw [Store.replaced_of_eq hk]
    exact hp
  · rw [Store.replaced_of_ne hk]
    exact (h r hr).mono hle

/-! ## Steps -/

theorem Change.recorded (h : Change d .forward e w w') (hle : w.clock ≤ w'.clock)
    (hw : AllRecorded w) : AllRecorded w' := by
  cases h with
  | idle h => exact hw.of_eq (by rw [h.store]) hle
  | create h => exact hw.of_eq h.sameRows.participants hle
  | cancel h | reschedule h => exact hw.of_eq (by rw [Store.writeCompetition_eq_ok h.stored]) hle
  | add _ h =>
    refine hw.addParticipant h.stored (Participant.Recorded.mono ?_ h.during.after) hle
    obtain hp | ⟨by', hp⟩ := h.made
    · rw [hp]
      exact Participant.recorded_join _ _ _
    · rw [hp]
      exact Participant.recorded_invite _ _ _ _
  | accept _ h =>
    obtain ⟨hq, -⟩ := Store.participant?_eq_some h.row
    have hrec := (hw _ hq).accept h.invited h.during.before
    exact hw.writeParticipant h.stored (hrec.mono h.during.after) hle
  | leave h =>
    obtain ⟨hq, -⟩ := Store.participant?_eq_some h.row
    have hrec := (hw _ hq).leave h.active h.during.before
    exact hw.writeParticipant h.stored (hrec.mono h.during.after) hle
  | grant h => exact hw.of_eq (Store.SameRows.addGrant h.stored).participants hle
  | revoke h => exact hw.of_eq (Store.SameRows.removeGrant h.stored).participants hle
  | enrol h => exact hw.of_eq (Store.SameRows.addPlayer h).participants hle
  | insert => exact hw.of_eq rfl hle

theorem Change.becomes (h : Change d .forward e w w') (hs : w.store.Sound) (hw : AllRecorded w) :
    Endures w.store w'.store := by
  cases h with
  | idle h => exact endures_of_eq (by rw [h.store])
  | create h => exact endures_of_eq h.sameRows.participants
  | cancel h | reschedule h => exact endures_of_eq (by rw [Store.writeCompetition_eq_ok h.stored])
  | add _ h => exact endures_addParticipant h.stored
  | accept _ h =>
    obtain ⟨hq, -⟩ := Store.participant?_eq_some h.row
    exact endures_writeParticipant hs h.stored hq ((hw _ hq).shaped.becomes_accept h.invited _)
  | leave h =>
    obtain ⟨hq, -⟩ := Store.participant?_eq_some h.row
    exact endures_writeParticipant hs h.stored hq ((hw _ hq).shaped.becomes_leave h.active _)
  | grant h => exact endures_of_eq (Store.SameRows.addGrant h.stored).participants
  | revoke h => exact endures_of_eq (Store.SameRows.removeGrant h.stored).participants
  | enrol h => exact endures_of_eq (Store.SameRows.addPlayer h).participants
  | insert => exact endures_of_eq rfl

/-! ## Runs -/

theorem Run.recorded {t : Instant} (h : Run d .forward (World.fresh t) es w) :
    w.store.Sound ∧ AllRecorded w := by
  refine h.invariant Store.sound_empty ?_ fun _ _ _ _ _ hw st => ?_
  · intro p hp; cases hp
  · exact st.change.recorded st.clock_moves hw

theorem Run.endures (h : Run d .forward w es w') (hs : w.store.Sound) (hw : AllRecorded w) :
    Endures w.store w'.store := by
  induction h with
  | nil => exact .refl _
  | cons st _ ih =>
    have hfirst := st.change.becomes hs hw
    exact hfirst.trans (ih (st.sound hs) (st.change.recorded st.clock_moves hw))

/-- After every run whose clock never goes back, no key has two rows and every row is shaped; each
further step, and each further run, keeps every row, whatever it becomes. -/
theorem participants_endure {t : Instant} (h : Run d .forward (World.fresh t) es w) :
    (w.store.participants.map Participant.key).Nodup ∧
      (∀ p ∈ w.store.participants, p.Shaped) ∧
      (∀ e w', Step d .forward w e w' → ∀ p ∈ w.store.participants,
        ∃ q ∈ w'.store.participants, p.Becomes q) ∧
      ∀ es' w', Run d .forward w es' w' → ∀ p ∈ w.store.participants,
        ∃ q ∈ w'.store.participants, p.Becomes q := by
  obtain ⟨hs, hw⟩ := h.recorded
  refine ⟨hs.keys, fun p hp => (hw p hp).shaped, ?_, ?_⟩
  · intro e w' st
    exact st.change.becomes hs hw
  · intro es' w' hrun
    exact hrun.endures hs hw

theorem participants_endure_crowd :
    (crowded.store.participants.map Participant.key).Nodup ∧
      (∀ p ∈ crowded.store.participants, p.Shaped) ∧
      ∀ p ∈ crowded.store.participants,
        ∃ q ∈ (tick (.ofLimits {}) crowded (.call (.removeParticipant 1 2))).store.participants,
          p.Becomes q := by
  have hpaced : Instant.ofSecond 0 ≤ .ofSecond 10 := by decide
  obtain ⟨hkeys, hshaped, hstep, -⟩ := participants_endure (run_crowd .forward hpaced)
  exact ⟨hkeys, hshaped,
    hstep (.call (.removeParticipant 1 2)) _ (.call (Script.runs_run _ _) (by decide))⟩

end Desk

end Steward
