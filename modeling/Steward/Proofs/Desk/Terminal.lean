import Steward.Proofs.Desk.Proper
import Steward.Proofs.Store.Operations

/-!
# Final states and old copies

A cancelled competition stays cancelled and a participant who has left stays away, unless a visit
under way has found the row before it became so. Such a visit writes what it has found: a change of
dates takes the cancellation back, and an invitation that is taken up brings back a player who has
left.

* `Settled.move`: what only the holder of an old copy can undo stays while nobody holds one.
* `final_states_stay`: so do cancellations and departures, for good.
* `old_copies_revive`: with an old copy about they do not.
-/

namespace Steward.Desk

open Call Command Floor Store Time

variable {d : Desk} {most : Nat} {x y : Floor} {id competition player : Int}

/-! ## Old copies -/

/-- The store is as `S` says, and no visit under way has found what `old` says. -/
structure Settled (S : Store → Prop) (old : Command → List Asked → Prop) (x : Floor) : Prop where
  proper : ∀ v ∈ x.visits, v.Proper
  stored : S x.world.store
  free : ∀ v ∈ x.visits, v.isRunning = true → ¬old v.command v.past

section
variable {S : Store → Prop} {old : Command → List Asked → Prop}

/-- If only a call that has found what `old` says can undo `S`, and that cannot be found while `S`
holds, then `S` stays. -/
theorem Settled.move (hstart : ∀ cmd, ¬old cmd [])
    (hkeep : ∀ (w : World) (cmd : Command) (past : List Asked) (op : StoreOp), S w.store →
      w.store.CountsUp (w.perform op).2.store → cmd.MayAsk past op → ¬old cmd past →
      S (w.perform op).2.store)
    (hfind : ∀ (w : World) (cmd : Command) (past : List Asked) (op : StoreOp), S w.store →
      old cmd (⟨w, op⟩ :: past) → old cmd past)
    (h : Settled S old x) (m : Move d most x y) : Settled S old y := by
  obtain ⟨proper, stored, free⟩ := h
  cases m with
  | idle hstore hvisits =>
    rw [← hstore] at stored
    rw [← hvisits] at proper free
    exact ⟨proper, stored, free⟩
  | arrive cmd _ =>
    refine ⟨?_, stored, ?_⟩
    · exact List.forall_mem_append.2
        ⟨proper, List.forall_mem_singleton.2 (Visit.start_proper d cmd)⟩
    · exact List.forall_mem_append.2 ⟨free, List.forall_mem_singleton.2 fun _ => hstart cmd⟩
  | @proceed w as bs v v' op hp =>
    obtain ⟨has, hv⟩ := List.forall_mem_append.1 proper
    obtain ⟨hv, hbs⟩ := List.forall_mem_cons.1 hv
    obtain ⟨has', hv'⟩ := List.forall_mem_append.1 free
    obtain ⟨hv', hbs'⟩ := List.forall_mem_cons.1 hv'
    have hfree := hv' hp.isRunning
    refine ⟨List.forall_mem_append.2 ⟨has, List.forall_mem_cons.2 ⟨hv.after hp, hbs⟩⟩, ?_, ?_⟩
    · exact hkeep w v.command v.past op stored hp.countsUp (hv.allowed hp) hfree
    · refine List.forall_mem_append.2 ⟨has', List.forall_mem_cons.2 ⟨fun _ hold => ?_, hbs'⟩⟩
      rw [hp.command, hp.past] at hold
      exact hfree (hfind w v.command v.past op stored hold)

end

/-! ## Cancelled competitions -/

/-- The competition is stored as cancelled. -/
def IsCancelled (id : Int) (s : Store) : Prop :=
  ∃ c, s.competition? id = some c ∧ c.isCancelled = true

theorem IsCancelled.perform {w : World} {cmd : Command} {past : List Asked} {op : StoreOp}
    (h : IsCancelled id w.store) (hgiven : id ≤ w.store.lastId.toInt)
    (hup : w.store.CountsUp (w.perform op).2.store) (hask : cmd.MayAsk past op)
    (hfree : cmd.liveCopy? past ≠ some id) : IsCancelled id (w.perform op).2.store := by
  obtain ⟨c, hc, hcancelled⟩ := h
  obtain hsame | ⟨c', rfl, hwritten⟩ := (w.perform_written op).competition? hup hgiven hc
  · exact ⟨c, hsame, hcancelled⟩
  · refine ⟨_, hwritten, ?_⟩
    unfold written
    split
    · next hid =>
      -- Only from a live copy could the competition be written over as live.
      obtain hcancel | hcopy := hask.2
      · exact hcancel
      · rw [← hid, (competition?_eq_some hc).2] at hcopy
        exact absurd hcopy hfree
    · exact hcancelled

theorem IsCancelled.findsLive {w : World} (h : IsCancelled id w.store) (op : StoreOp) :
    (Asked.mk w op).findsLive id = false := by
  obtain ⟨c, hc, hcancelled⟩ := h
  cases op with
  | competition? i =>
    by_cases hi : i = id
    · simp only [Asked.findsLive, hi, hc, hcancelled, Option.any_some, Bool.not_true,
        Bool.and_false]
    · simp only [Asked.findsLive, hi, decide_false, Bool.false_and]
  | _ => rfl

/-! ## Participants who have left -/

/-- The participant is stored as one who has left. -/
def HasLeft (competition player : Int) (s : Store) : Prop :=
  ∃ p, s.participant? competition player = some p ∧ p.standing = .left

theorem HasLeft.perform {w : World} {cmd : Command} {past : List Asked} {op : StoreOp}
    (h : HasLeft competition player w.store) (hask : cmd.MayAsk past op)
    (hfree : cmd.invitation? past ≠ some (competition, player)) :
    HasLeft competition player (w.perform op).2.store := by
  obtain ⟨p, hp, hleft⟩ := h
  obtain hsame | ⟨p', rfl, hwritten⟩ := (w.perform_written op).participant? hp
  · exact ⟨p, hsame, hleft⟩
  · refine ⟨_, hwritten, ?_⟩
    unfold replaced
    split
    · next hk =>
      -- Only where an invitation was found could another standing be written.
      obtain hleave | hinvitation := hask.2
      · exact hleave
      · rw [← hk, (participant?_eq_some hp).2] at hinvitation
        exact absurd hinvitation hfree
    · exact hleft

theorem HasLeft.findsInvited {w : World} (h : HasLeft competition player w.store) (op : StoreOp) :
    (Asked.mk w op).findsInvited (competition, player) = false := by
  obtain ⟨p, hp, hleft⟩ := h
  cases op with
  | participant? c q =>
    by_cases hk : (c, q) = (competition, player)
    · obtain ⟨rfl, rfl⟩ := Prod.mk.inj hk
      simp [Asked.findsInvited, hp, hleft]
    · simp only [Asked.findsInvited, hk, decide_false, Bool.false_and]
  | _ => rfl

/-! ## Runs -/

/-- A competition that is cancelled, and a participant who has left, stay so for good if no visit
under way has found the competition live, or the participant invited. The identifier of a stored
competition is one that the counter has given; a new row would take the place of any other. -/
theorem final_states_stay (d : Desk) (most : Nat) (w : World) (turns later : List Turn) :
    let x := (fresh w).play d most turns
    let y := x.play d most later
    (∀ id ≤ x.world.store.lastId.toInt, IsCancelled id x.world.store →
      (∀ v ∈ x.visits, v.isRunning = true → v.command.liveCopy? v.past ≠ some id) →
      IsCancelled id y.world.store) ∧
    ∀ competition player, HasLeft competition player x.world.store →
      (∀ v ∈ x.visits, v.isRunning = true →
        v.command.invitation? v.past ≠ some (competition, player)) →
      HasLeft competition player y.world.store := by
  have hproper := play_proper d most w turns
  refine ⟨fun id hgiven hc hfree => ?_, fun competition player hp hfree => ?_⟩
  · have hsettled : Settled (fun s => id ≤ s.lastId.toInt ∧ IsCancelled id s)
        (fun cmd past => cmd.liveCopy? past = some id) _ :=
      ⟨hproper, ⟨hgiven, hc⟩, hfree⟩
    refine (play_invariant (Settled.move ?_ ?_ ?_) hsettled later).stored.2
    · simp [liveCopy?]
    · rintro w _ _ op ⟨hgiven, h⟩ hup hask hold
      exact ⟨Int.le_trans hgiven (Int32.le_iff_toInt_le.1 hup), h.perform hgiven hup hask hold⟩
    · rintro w cmd past op ⟨-, h⟩ hold
      obtain hbefore | hnow := filter_any_cons hold
      · exact hbefore
      · rw [h.findsLive op] at hnow
        cases hnow
  · have hsettled : Settled (HasLeft competition player)
        (fun cmd past => cmd.invitation? past = some (competition, player)) _ :=
      ⟨hproper, hp, hfree⟩
    refine (play_invariant (Settled.move ?_ ?_ ?_) hsettled later).stored
    · simp [invitation?]
    · exact fun _ _ _ _ h _ hask hold => h.perform hask hold
    · intro w cmd past op h hold
      obtain hbefore | hnow := filter_any_cons hold
      · exact hbefore
      · rw [h.findsInvited op] at hnow
        cases hnow

/-- The owner cancels while nobody else is there. -/
def cancelledFirst : Floor :=
  (fresh opening).play (.ofLimits {}) 2 (.arrive (.cancelCompetition 1 ⟨2⟩ false) :: steps 0 5)

theorem final_states_stay_cancelledFirst :
    IsCancelled 1 (cancelledFirst.play (.ofLimits {}) 2
      (.arrive (.updateDates 1 ⟨2⟩ true (.season "spring")) :: steps 1 3)).world.store :=
  (final_states_stay (.ofLimits {}) 2 opening
    (.arrive (.cancelCompetition 1 ⟨2⟩ false) :: steps 0 5)
    (.arrive (.updateDates 1 ⟨2⟩ true (.season "spring")) :: steps 1 3)).1 1
    (by decide) ⟨_, rfl, rfl⟩ (by decide)

/-! ## Old copies bring rows back -/

/-- The owner changes dates and, before they are written, cancels. -/
def cancelledMeanwhile : Floor :=
  (fresh opening).play (.ofLimits {}) 2
    ([.arrive (.updateDates 1 ⟨2⟩ false (.fixed (.ofSecond 10) (.ofSecond 30)))] ++ steps 0 1 ++
      [.arrive (.cancelCompetition 1 ⟨2⟩ false)] ++ steps 1 5)

/-- A player is invited, accepts and, before that is written, leaves. -/
def leftMeanwhile : Floor :=
  (fresh opening).play (.ofLimits {}) 2
    ([.arrive (.inviteParticipant 1 1 ⟨2⟩)] ++ steps 0 7 ++ [.arrive (.acceptInvitation 1 1)] ++
      steps 1 3 ++ [.arrive (.removeParticipant 1 1)] ++ steps 2 3)

/-- A cancellation is taken back by a change of dates, and a player who has left is brought back by
accepting, if these had found the row before. -/
theorem old_copies_revive :
    ((cancelledMeanwhile.world.store.competition? 1).map (·.isCancelled) = some true ∧
      ((cancelledMeanwhile.play (.ofLimits {}) 2 (steps 0 3)).world.store.competition? 1).map
        (·.isCancelled) = some false) ∧
    (leftMeanwhile.world.store.participant? 1 1).map (·.standing) = some .left ∧
      ((leftMeanwhile.play (.ofLimits {}) 2 (steps 1 2)).world.store.participant? 1 1).map
        (·.standing) = some .joined := by
  decide

end Steward.Desk
