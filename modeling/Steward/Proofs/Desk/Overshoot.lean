import Steward.Proofs.Desk.PlacesHeld

/-!
# Places and rows when calls run at once

No more than one place too many is taken for each visit under way but one, and no player gets two
rows in a competition: of all visits that add a row of one key, one succeeds.

* `rowsOf_perform`: each row that a visit adds is stored from then on.
* `Kept.move`: what each move keeps.
* `overshoot_bounded`: the bound on participants, and what becomes of calls that add rows.
-/

namespace Steward.Desk

open Call Command Floor Store Time

/-! ## Rows of one key -/

/-- Whether the visit has added a row of the key. -/
def Visit.hasInserted (key : Int × Int) (v : Visit) : Bool := v.past.any (·.inserts key)

/-- How many rows there are of a key. -/
def rowsOf (s : Store) (key : Int × Int) : Nat := s.participants.countP (·.key = key)

theorem rowsOf_mono {s s' : Store} {op : StoreOp} (h : Written s op s') (key : Int × Int) :
    rowsOf s key ≤ rowsOf s' key := by
  unfold rowsOf
  cases h with
  | same h => exact Nat.le_of_eq (by rw [h.participants])
  | create => exact Nat.le_refl _
  | rewrite h => exact Nat.le_of_eq (by rw [writeCompetition_eq_ok h])
  | add h =>
    obtain ⟨-, rfl⟩ := addParticipant_eq_ok h
    rw [List.countP_append]
    exact Nat.le_add_right _ _
  | replace h =>
    rw [writeParticipant_eq_ok h, List.countP_map]
    refine List.countP_mono_left fun r _ hr => ?_
    rw [Function.comp_apply, replaced_key]
    exact hr

/-- A row that is added counts. -/
theorem rowsOf_perform (w : World) (op : StoreOp) (key : Int × Int) :
    (rowsOf w.store key + if (Asked.mk w op).inserts key then 1 else 0) ≤
      rowsOf (w.perform op).2.store key := by
  split
  · next hins =>
    cases op with
    | addParticipant p =>
      simp only [Asked.inserts, Bool.and_eq_true, decide_eq_true_eq] at hins
      obtain ⟨rfl, hok⟩ := hins
      cases hw : w.store.addParticipant p with
      | error r =>
        rw [hw] at hok
        cases hok
      | ok s =>
        simp only [World.perform, hw, World.attempt]
        obtain ⟨-, rfl⟩ := addParticipant_eq_ok hw
        simp [rowsOf, List.countP_append]
    | _ => cases hins
  · exact rowsOf_mono (w.perform_written op) key

/-- No two rows of keyed tables have one key. -/
theorem rowsOf_le_one {s : Store} (hs : s.Sound) (key : Int × Int) : rowsOf s key ≤ 1 := by
  have hmap : rowsOf s key = (s.participants.map Participant.key).count key := by
    rw [List.count, List.countP_map]
    refine List.countP_congr fun p _ => ?_
    simp
  rw [hmap]
  exact List.nodup_iff_count_le_one.1 hs.keys key

theorem Visit.Proceeds.hasInserted {w : World} {op : StoreOp} {v v' : Visit}
    (hp : v.Proceeds w op v') (key : Int × Int) :
    v'.hasInserted key = ((Asked.mk w op).inserts key || v.hasInserted key) := by
  rw [Visit.hasInserted, hp.past, List.any_cons]
  rfl

/-! ## Runs -/

/-- What all turns keep while at most `most` visits are running. -/
structure Kept (most : Nat) (x : Floor) : Prop where
  sound : x.world.store.Sound
  proper : ∀ v ∈ x.visits, v.Proper
  few : x.running ≤ most
  seen : ∀ v ∈ x.visits, ∀ a ∈ v.past, a.world.store.Extends x.world.store
  bounded : ∀ c ∈ x.world.store.competitions,
    Bounded most x.world.store x.visits c.id c.maxParticipants
  once : ∀ key, x.visits.countP (·.hasInserted key) ≤ rowsOf x.world.store key

variable {d : Desk} {most : Nat} {x y : Floor}

theorem Kept.arrive (h : Kept most x) (c : Command) (room : x.running < most) :
    Kept most { x with visits := x.visits ++ [.start d c] } := by
  have hholds : ∀ competition places, (Visit.start d c).holds competition places = false := by
    intro competition places
    rw [Visit.holds]
    exact Bool.and_false _
  refine { sound := h.sound, proper := ?_, few := ?_, seen := ?_, bounded := ?_, once := ?_ }
  · exact List.forall_mem_append.2
      ⟨h.proper, List.forall_mem_singleton.2 (Visit.start_proper d c)⟩
  · unfold Floor.running at room ⊢
    rw [List.countP_append, List.countP_singleton]
    split <;> omega
  · exact List.forall_mem_append.2 ⟨h.seen, List.forall_mem_singleton.2 (List.forall_mem_nil _)⟩
  · intro c' hc'
    have hbounded := h.bounded c' hc'
    unfold Bounded invitations holding at hbounded ⊢
    simpa [hholds] using hbounded
  · intro key
    rw [List.countP_append]
    exact h.once key

theorem Kept.proceed {w : World} {as bs : List Visit} {v v' : Visit} {op : StoreOp}
    (h : Kept most ⟨w, as ++ v :: bs⟩) (hmost : 0 < most) (hp : v.Proceeds w op v') :
    Kept most ⟨(w.perform op).2, as ++ v' :: bs⟩ := by
  obtain ⟨has, hv⟩ := List.forall_mem_append.1 h.proper
  obtain ⟨hv, hbs⟩ := List.forall_mem_cons.1 hv
  obtain ⟨seen_as, seen_v⟩ := List.forall_mem_append.1 h.seen
  obtain ⟨seen_v, seen_bs⟩ := List.forall_mem_cons.1 seen_v
  have hwritten := w.perform_written op
  have hextends := hwritten.extends h.sound.last hp.countsUp
  have hlater : ∀ {u : Visit}, (∀ a ∈ u.past, a.world.store.Extends w.store) →
      ∀ a ∈ u.past, a.world.store.Extends (w.perform op).2.store :=
    fun hu a ha => (hu a ha).trans hextends
  refine { sound := ?_, proper := ?_, few := ?_, seen := ?_, bounded := ?_, once := ?_ }
  · refine hwritten.sound h.sound hp.countsUp ?_
    rintro p rfl
    -- A row is added only for a competition that was found, and competitions stay.
    obtain ⟨-, -, a, ha, r, hr, hid, -⟩ := hv.allowed hp
    obtain ⟨c, hc, hid', -⟩ := seen_v a ha r hr
    exact ⟨c, hc, hid'.trans hid⟩
  · exact List.forall_mem_append.2 ⟨has, List.forall_mem_cons.2 ⟨hv.after hp, hbs⟩⟩
  · exact Nat.le_trans (running_after hp) h.few
  · refine List.forall_mem_append.2 ⟨fun u hu => hlater (seen_as u hu),
      List.forall_mem_cons.2 ⟨?_, fun u hu => hlater (seen_bs u hu)⟩⟩
    rw [hp.past]
    exact List.forall_mem_cons.2 ⟨hextends, hlater seen_v⟩
  · exact bounded_written hp hv seen_v h.sound hmost h.few hwritten hp.countsUp h.bounded
  · intro key
    have hrows := rowsOf_perform w op key
    have honce := h.once key
    -- Who comes to have added a row has added it now, and the row counts.
    have hone : (if v'.hasInserted key then 1 else 0) ≤
        (if v.hasInserted key then 1 else 0) + if (Asked.mk w op).inserts key then 1 else 0 := by
      rw [hp.hasInserted key]
      cases (Asked.mk w op).inserts key <;> cases v.hasInserted key <;> decide
    simp only [List.countP_append, List.countP_cons] at honce ⊢
    omega

theorem Kept.move (hmost : 0 < most) (h : Kept most x) (m : Move d most x y) : Kept most y := by
  cases m with
  | idle hstore hvisits =>
    obtain ⟨sound, proper, few, seen, bounded, once⟩ := h
    unfold Floor.running at few
    rw [← hstore] at sound seen bounded once
    rw [← hvisits] at proper few seen bounded once
    exact ⟨sound, proper, few, seen, bounded, once⟩
  | arrive c room => exact h.arrive c room
  | proceed hp => exact h.proceed hmost hp

/-- The bound holds before anybody has come. -/
theorem kept_fresh {w : World} (hs : w.store.Sound) (hnone : w.store.participants = [])
    (hmost : 0 < most) : Kept most (fresh w) where
  sound := hs
  proper := List.forall_mem_nil _
  few := Nat.zero_le _
  seen := List.forall_mem_nil _
  bounded := by
    intro c _
    simp only [Bounded, claimed, holding, fresh, hnone, List.countP_nil]
    omega
  once := fun _ => Nat.zero_le _

/-- Calls that run at once, at most `most` at a time, take at most one place too many for each of
them but one. No player gets two rows in a competition, and of all calls at most one adds the row.
A call whose row is refused fails with that and changes nothing. Whatever else was to add a row has
found an invitation instead, or fails by an earlier rule and changes nothing. -/
theorem overshoot_bounded (d : Desk) (most : Nat) (w : World) (turns : List Turn)
    (hs : w.store.Sound) (hnone : w.store.participants = []) (hmost : 0 < most) :
    let x := (fresh w).play d most turns
    (∀ id c, x.world.store.competition? id = some c →
      ((seated x.world.store id).length : Int) ≤ max 0 c.maxParticipants + most - 1) ∧
    (x.world.store.participants.map Participant.key).Nodup ∧
    (∀ key, x.visits.countP (·.hasInserted key) ≤ 1) ∧
    (∀ v ∈ x.visits, ∀ a ∈ v.past, ∀ p r, a.op = .addParticipant p →
      a.world.store.addParticipant p = .error r →
      v.outcome? = some (.error (.refusal .alreadyParticipant)) ∧ ∀ a ∈ v.past, a.Idle) ∧
    ∀ v ∈ x.visits, ∀ key r, v.command.adds? = some key → v.outcome? = some r →
      v.hasInserted key = true ∨ v.command.invitation? v.past = some key ∨
        (∃ e, r = .error e) ∧ ∀ a ∈ v.past, a.Idle := by
  have hkept : Kept most ((fresh w).play d most turns) :=
    play_invariant (Kept.move hmost) (kept_fresh hs hnone hmost) turns
  refine ⟨fun id c hc => ?_, hkept.sound.keys, fun key => ?_, ?_, ?_⟩
  · obtain ⟨hmem, rfl⟩ := competition?_eq_some hc
    have hbounded := hkept.bounded c hmem
    have hactive : ((fresh w).play d most turns).world.store.countActive c.id ≤
        claimed ((fresh w).play d most turns).world.store
          (invitations ((fresh w).play d most turns).visits) c.id := by
      refine List.countP_mono_left fun p _ hp => ?_
      simp only [Bool.and_eq_true, Bool.or_eq_true] at hp ⊢
      exact ⟨hp.1, .inl hp.2⟩
    rw [length_seated]
    unfold Bounded at hbounded
    omega
  · exact Nat.le_trans (hkept.once key) (rowsOf_le_one hkept.sound key)
  · exact fun v hv a ha p r hop hr => Visit.insertion_refused (hkept.proper v hv) ha hop hr
  · exact fun v hv key r hadds hr => Visit.ended_addition (hkept.proper v hv) hr hadds

theorem sound_opening : opening.store.Sound where
  ids := by decide
  last := by unfold Store.Numbered; decide
  keys := by decide
  home := by decide

/-- Two players count the places, then both join. -/
def rush : Floor :=
  (fresh opening).play (.ofLimits {}) 2
    ([.arrive (.join 1 1), .arrive (.join 1 2)] ++ steps 0 6 ++ steps 1 6 ++ steps 0 1 ++ steps 1 1)

/-- They get the one place and one more. -/
theorem overshoot_bounded_rush :
    ((seated rush.world.store 1).length : Int) ≤ 2 ∧ (seated rush.world.store 1).length = 2 := by
  have hbounded := (overshoot_bounded (.ofLimits {}) 2 opening
    ([.arrive (.join 1 1), .arrive (.join 1 2)] ++ steps 0 6 ++ steps 1 6 ++ steps 0 1 ++ steps 1 1)
    sound_opening (by decide) (by decide)).1
  refine ⟨hbounded 1 (onePlace.toCompetition 1 (.ofSecond 0)) (by decide), by decide⟩

end Steward.Desk
