import Mathlib.Data.List.Perm.Subperm
import Steward.Proofs.Desk.Places
import Steward.Proofs.Desk.Proper
import Steward.Proofs.Store.Operations

/-!
# Places that are taken or will be

Counting the places of a competition and adding a row are two operations, so several visits may find
the same place free. An invitation that is taken up late may bring back a player who has left
meanwhile. So two things are counted together: `claimed` are the rows that take up a place or whose
invitation some visit has found, `holding` the visits that have found room. A visit is never counted
for both. `Bounded` says that both are no more than the places and one for each visit but one.

* `bounded_of_free`: a visit that finds room has counted the places, so there are enough.
* `Bounded.add`, `Bounded.replace`: a row that is added was held, one that is replaced was claimed.
* `bounded_written`: the bound is kept, whatever an operation writes.
-/

namespace Steward.Desk

open Call Command Floor Store Time

/-! ## What visits are about to take -/

namespace Visit

/-- Whether a running visit has found room in a competition of so many places, and no invitation. -/
def holds (competition places : Int) (v : Visit) : Bool :=
  v.isRunning && v.invitation?.isNone && v.past.any (·.findsRoom competition places)

end Visit

/-- The keys of the invitations that visits have found and may take up. -/
def invitations (visits : List Visit) : List (Int × Int) := visits.filterMap Visit.invitation?

/-- How many visits have found room. -/
def holding (visits : List Visit) (competition places : Int) : Nat :=
  visits.countP (Visit.holds competition places)

/-- How many participants take up a place of a competition, or will when their invitation is taken
up. -/
def claimed (s : Store) (keys : List (Int × Int)) (competition : Int) : Nat :=
  s.participants.countP fun p => p.competition = competition && (p.isActive || p.key ∈ keys)

/-- All that is claimed and held is no more than the places and one for each visit but one. -/
def Bounded (most : Nat) (s : Store) (visits : List Visit) (competition places : Int) : Prop :=
  (claimed s (invitations visits) competition + holding visits competition places : Int) ≤
    max 0 places + most - 1

section
variable {s : Store} {keys keys' : List (Int × Int)} {competition places : Int}

/-- A running visit holds room or an invitation, but not both. -/
theorem holding_add_invitations_le (visits : List Visit) (competition places : Int) :
    holding visits competition places + (invitations visits).length ≤
      visits.countP (·.isRunning) := by
  induction visits with
  | nil => exact Nat.le_refl _
  | cons v visits ih =>
    unfold holding invitations at ih ⊢
    rw [List.countP_cons, List.countP_cons, List.filterMap_cons]
    cases hr : v.isRunning with
    | false =>
      have hi : v.invitation? = none := by
        rw [Visit.invitation?, hr, if_neg Bool.false_ne_true]
      have hh : v.holds competition places = false := by
        rw [Visit.holds, hr, Bool.false_and, Bool.false_and]
      simp only [hi, hh]
      simpa using ih
    | true =>
      cases hi : v.invitation? with
      | none =>
        simp only
        split <;> simp <;> omega
      | some key =>
        have hh : v.holds competition places = false := by
          rw [Visit.holds, hi, Option.isNone_some, Bool.and_false, Bool.false_and]
        simp [hh]
        omega

/-- Keys that differ are no more than the keys they are found among. -/
theorem countP_key_le (keys : List (Int × Int)) (h : (s.participants.map Participant.key).Nodup) :
    s.participants.countP (fun p => p.key ∈ keys) ≤ keys.length := by
  have hsub : ((s.participants.map Participant.key).filter (· ∈ keys)).Subperm keys := by
    refine List.subperm_of_subset (List.Nodup.filter _ h) fun key hkey => ?_
    exact of_decide_eq_true (List.mem_filter.1 hkey).2
  calc s.participants.countP (fun p => p.key ∈ keys)
      = (s.participants.map Participant.key).countP (· ∈ keys) := by
        rw [List.countP_map]
        rfl
    _ = ((s.participants.map Participant.key).filter (· ∈ keys)).length :=
        List.countP_eq_length_filter
    _ ≤ keys.length := List.Subperm.length_le hsub

theorem countP_or_le {α : Type} (p q : α → Bool) (l : List α) :
    l.countP (fun a => p a || q a) ≤ l.countP p + l.countP q := by
  induction l with
  | nil => exact Nat.le_refl _
  | cons a l ih =>
    rw [List.countP_cons, List.countP_cons, List.countP_cons]
    cases p a <;> cases q a <;> simp <;> omega

theorem claimed_le (hs : s.Sound) (keys : List (Int × Int)) (competition : Int) :
    claimed s keys competition ≤ s.countActive competition + keys.length := by
  have hsplit : claimed s keys competition ≤
      s.countActive competition + s.participants.countP (fun p => p.key ∈ keys) := by
    refine Nat.le_trans (List.countP_mono_left fun p _ hp => ?_) (countP_or_le _ _ _)
    simp only [Bool.and_eq_true, Bool.or_eq_true, decide_eq_true_eq] at hp ⊢
    obtain ⟨hc, ha | hk⟩ := hp
    · exact .inl ⟨hc, ha⟩
    · exact .inr hk
  have hkeys := countP_key_le keys hs.keys
  omega

/-- Where a place is free, the visits under way are too few to go beyond the bound. -/
theorem bounded_of_free {visits : List Visit} {most : Nat} (hs : s.Sound)
    (hfew : visits.countP (·.isRunning) ≤ most)
    (hfree : (s.countActive competition : Int) < places) :
    Bounded most s visits competition places := by
  unfold Bounded
  have hcrowd := holding_add_invitations_le visits competition places
  have hclaimed := claimed_le hs (invitations visits) competition
  omega

end

/-! ## One more operation -/

theorem mem_invitations {as bs : List Visit} {v : Visit} {key : Int × Int} :
    key ∈ invitations (as ++ v :: bs) ↔
      key ∈ invitations as ∨ v.invitation? = some key ∨ key ∈ invitations bs := by
  unfold invitations
  rw [List.filterMap_append, List.mem_append, List.mem_filterMap (l := v :: bs),
    List.exists_mem_cons_iff, ← List.mem_filterMap]

theorem holding_append_cons (as bs : List Visit) (v : Visit) (competition places : Int) :
    holding (as ++ v :: bs) competition places = holding as competition places +
      holding bs competition places + if v.holds competition places then 1 else 0 := by
  unfold holding
  rw [List.countP_append, List.countP_cons, Nat.add_assoc]

section
variable {w : World} {op : StoreOp} {v v' : Visit} {as bs : List Visit} {competition places : Int}
  {most : Nat}

/-- An invitation that is never found was not found before. -/
theorem invitation?_of_cons {cmd : Command} {a : Asked} {past : List Asked}
    (h : cmd.invitation? (a :: past) = none) : cmd.invitation? past = none := by
  rw [invitation?, Option.filter_eq_none_iff] at h ⊢
  intro key hkey hany
  exact h key hkey (by rw [List.any_cons, hany, Bool.or_true])

/-- A visit that holds room after one more operation has held it before, or has found it with the
last. -/
theorem Visit.Proceeds.holds (hp : v.Proceeds w op v') (h : v'.holds competition places = true) :
    v.holds competition places = true ∨ (Asked.mk w op).findsRoom competition places = true := by
  unfold Visit.holds at h ⊢
  simp only [hp.past, hp.isRunning, Bool.and_eq_true, List.any_cons, Bool.or_eq_true,
    true_and] at h ⊢
  obtain ⟨⟨hr, hnone⟩, hnow | hbefore⟩ := h
  · exact .inr hnow
  · refine .inl ⟨?_, hbefore⟩
    rw [Option.isNone_iff_eq_none, invitation?_of_running hr, hp.command, hp.past] at hnone
    rw [invitation?_of_running hp.isRunning]
    exact Option.isNone_iff_eq_none.2 (invitation?_of_cons hnone)

/-- The row of an invitation that is found takes up a place. -/
theorem isActive_of_findsInvited {key : Int × Int} (hs : w.store.Sound)
    (hf : (Asked.mk w op).findsInvited key = true) {p : Participant}
    (hp : p ∈ w.store.participants) (hk : p.key = key) : p.isActive = true := by
  cases op with
  | participant? c q =>
    simp only [Asked.findsInvited, Bool.and_eq_true, decide_eq_true_eq, Option.any_eq_true] at hf
    obtain ⟨rfl, p', hfound, hi⟩ := hf
    rw [hs.participant?_eq_some_iff.2 ⟨hp, hk⟩] at hfound
    obtain rfl := Option.some.inj hfound
    rw [Participant.isActive, hi]
    rfl
  | _ => cases hf

theorem running_after (hp : v.Proceeds w op v') :
    (as ++ v' :: bs).countP (·.isRunning) ≤ (as ++ v :: bs).countP (·.isRunning) := by
  rw [List.countP_append, List.countP_append, List.countP_cons, List.countP_cons,
    if_pos hp.isRunning]
  split <;> omega

/-- An invitation that is found after one more operation was found before, or its row takes up a
place. -/
theorem invitations_after (hp : v.Proceeds w op v') (hs : w.store.Sound) {p : Participant}
    (hmem : p ∈ w.store.participants) (hk : p.key ∈ invitations (as ++ v' :: bs)) :
    p.key ∈ invitations (as ++ v :: bs) ∨ p.isActive = true := by
  rw [mem_invitations] at hk ⊢
  obtain has | hv | hbs := hk
  · exact .inl (.inl has)
  · obtain hbefore | hnow := hp.invitation? hv
    · exact .inl (.inr (.inl hbefore))
    · exact .inr (isActive_of_findsInvited hs hnow hmem rfl)
  · exact .inl (.inr (.inr hbs))

theorem claimed_mono {s : Store} {keys keys' : List (Int × Int)} (competition : Int)
    (h : ∀ p ∈ s.participants, p.key ∈ keys' → p.key ∈ keys ∨ p.isActive = true) :
    claimed s keys' competition ≤ claimed s keys competition := by
  refine List.countP_mono_left fun p hp hclaims => ?_
  simp only [Bool.and_eq_true, Bool.or_eq_true, decide_eq_true_eq] at hclaims ⊢
  obtain ⟨hc, ha | hk⟩ := hclaims
  · exact ⟨hc, .inl ha⟩
  · exact ⟨hc, (h p hp hk).symm⟩

/-- A row that is added claims one place at most. -/
theorem claimed_add_le {s s' : Store} {keys keys' : List (Int × Int)} {p : Participant}
    (competition : Int) (hw : s.addParticipant p = .ok s')
    (h : ∀ q ∈ s.participants, q.key ∈ keys' → q.key ∈ keys ∨ q.isActive = true) :
    claimed s' keys' competition ≤
      claimed s keys competition + if p.competition = competition then 1 else 0 := by
  have hmono := claimed_mono competition h
  obtain ⟨-, rfl⟩ := addParticipant_eq_ok hw
  unfold claimed at hmono ⊢
  rw [List.countP_append, List.countP_singleton]
  refine Nat.add_le_add hmono ?_
  by_cases hc : p.competition = competition
  · rw [if_pos hc]
    split <;> omega
  · simp [hc]

/-- A row that is replaced claims a place only if it did before. -/
theorem claimed_replace_le {s s' : Store} {keys keys' : List (Int × Int)} {p : Participant}
    (competition : Int) (hw : s.writeParticipant p = .ok s')
    (hp : p.standing = .left ∨ p.key ∈ keys) (h : ∀ k ∈ keys', k ∈ keys) :
    claimed s' keys' competition ≤ claimed s keys competition := by
  rw [writeParticipant_eq_ok hw]
  unfold claimed
  rw [List.countP_map]
  refine List.countP_mono_left fun r _ hr => ?_
  simp only [Function.comp_apply, replaced_competition, replaced_key, Bool.and_eq_true,
    Bool.or_eq_true, decide_eq_true_eq] at hr ⊢
  refine ⟨hr.1, ?_⟩
  obtain ha | hk := hr.2
  · by_cases hrk : r.key = p.key
    · rw [replaced_of_eq hrk] at ha
      obtain hleft | hmem := hp
      · exact absurd hleft (isActive_iff.1 ha)
      · exact .inr (hrk ▸ hmem)
    · rw [replaced_of_ne hrk] at ha
      exact .inl ha
  · exact .inr (h _ hk)

theorem holding_after (as bs : List Visit) (hp : v.Proceeds w op v')
    (h : (Asked.mk w op).findsRoom competition places = false) :
    holding (as ++ v' :: bs) competition places ≤ holding (as ++ v :: bs) competition places := by
  rw [holding_append_cons, holding_append_cons]
  split
  · next hafter =>
    obtain hbefore | hnow := hp.holds hafter
    · exact Nat.le_of_eq (by rw [if_pos hbefore])
    · rw [h] at hnow
      cases hnow
  · omega

/-- Before the store is written the bound is kept: a visit that finds room has counted the places
itself. -/
theorem Bounded.after (hp : v.Proceeds w op v') (hs : w.store.Sound)
    (hfew : (as ++ v :: bs).countP (·.isRunning) ≤ most)
    (h : Bounded most w.store (as ++ v :: bs) competition places) :
    Bounded most w.store (as ++ v' :: bs) competition places := by
  cases hf : (Asked.mk w op).findsRoom competition places with
  | true =>
    -- The count is made now, so nothing is needed of what was held before.
    have hfree : (w.store.countActive competition : Int) < places := by
      cases op with
      | countActive i =>
        simp only [Asked.findsRoom, Bool.and_eq_true, decide_eq_true_eq] at hf
        obtain ⟨rfl, hlt⟩ := hf
        exact hlt
      | _ => cases hf
    exact bounded_of_free hs (Nat.le_trans (running_after hp) hfew) hfree
  | false =>
    have hholding := holding_after as bs hp hf
    have hclaimed : claimed w.store (invitations (as ++ v' :: bs)) competition ≤
        claimed w.store (invitations (as ++ v :: bs)) competition :=
      claimed_mono competition fun p hmem hk => invitations_after hp hs hmem hk
    unfold Bounded at h ⊢
    omega

theorem Bounded.congr {s s' : Store} {visits : List Visit}
    (h : Bounded most s visits competition places) (hs : s'.participants = s.participants) :
    Bounded most s' visits competition places := by
  unfold Bounded claimed at h ⊢
  rw [hs]
  exact h

/-! ## Writes -/

/-- A visit that adds a row has held room for it, and is done. -/
theorem Bounded.add {p : Participant} {s' : Store} {c : Competition}
    (hp : v.Proceeds w (.addParticipant p) v') (hv : v.Proper)
    (hseen : ∀ a ∈ v.past, a.world.store.Extends w.store) (hs : w.store.Sound)
    (hw : w.store.addParticipant p = .ok s') (hc : c ∈ w.store.competitions)
    (h : Bounded most w.store (as ++ v :: bs) c.id c.maxParticipants) :
    Bounded most s' (as ++ v' :: bs) c.id c.maxParticipants := by
  obtain ⟨-, hnone, a, ha, r, hr, hid, hroom⟩ := hv.allowed hp
  obtain ⟨c', hc', hid', hmax⟩ := hseen a ha r hr
  have hdone : v'.isRunning = false := by
    refine Visit.done_of_insertion (hv.after hp) (a := ⟨w, .addParticipant p⟩) ?_ rfl
    rw [hp.past]
    exact List.mem_cons_self
  have hholds : v'.holds c.id c.maxParticipants = false := by
    rw [Visit.holds, hdone, Bool.false_and, Bool.false_and]
  have hheld : p.competition = c.id → v.holds c.id c.maxParticipants = true := by
    intro hpc
    have hsame : c' = c := hs.competition_eq hc' hc (hid'.trans (hid.trans hpc))
    subst hsame
    have hnothing : v.invitation? = none := (Visit.invitation?_of_running hp.isRunning).trans hnone
    rw [Visit.holds, hp.isRunning, hnothing, hid', hmax, hroom]
    rfl
  have hkeys : ∀ q ∈ w.store.participants, q.key ∈ invitations (as ++ v' :: bs) →
      q.key ∈ invitations (as ++ v :: bs) ∨ q.isActive = true :=
    fun q hq hk => invitations_after hp hs hq hk
  have hclaimed := claimed_add_le c.id hw hkeys
  -- The place that the row takes is the one that the visit held and gives up.
  unfold Bounded at h ⊢
  rw [holding_append_cons] at h ⊢
  rw [hholds, if_neg Bool.false_ne_true]
  split at hclaimed
  · next hpc =>
    rw [if_pos (hheld hpc)] at h
    omega
  · omega

/-- A visit that replaces a row, other than by one that has left, has found the invitation. -/
theorem Bounded.replace {p : Participant} {s' : Store} (hp : v.Proceeds w (.writeParticipant p) v')
    (hv : v.Proper) (hw : w.store.writeParticipant p = .ok s')
    (h : Bounded most w.store (as ++ v :: bs) competition places) :
    Bounded most s' (as ++ v' :: bs) competition places := by
  have hwritten : p.standing = .left ∨ p.key ∈ invitations (as ++ v :: bs) := by
    refine (hv.allowed hp).2.imp_right fun hfound => ?_
    rw [← Visit.invitation?_of_running hp.isRunning] at hfound
    exact mem_invitations.2 (.inr (.inl hfound))
  have hkeys : ∀ k ∈ invitations (as ++ v' :: bs), k ∈ invitations (as ++ v :: bs) := by
    intro k hk
    rw [mem_invitations] at hk ⊢
    refine hk.imp_right (Or.imp_left fun hafter => ?_)
    exact (hp.invitation? hafter).resolve_right (by simp [Asked.findsInvited])
  have hclaimed := claimed_replace_le competition hw hwritten hkeys
  have hholding : holding (as ++ v' :: bs) competition places ≤
      holding (as ++ v :: bs) competition places := holding_after as bs hp rfl
  unfold Bounded at h ⊢
  omega

/-- Nobody takes part in a new competition, and visits have found room only if it has places. -/
theorem bounded_create {visits : List Visit} {id : Int} (hs : w.store.Sound) (hmost : 0 < most)
    (hfew : visits.countP (·.isRunning) ≤ most) (hid : w.store.lastId.toInt < id) (places : Int) :
    Bounded most w.store visits id places := by
  have hclaimed : claimed w.store (invitations visits) id = 0 := by
    refine List.countP_eq_zero.2 fun p hp => ?_
    obtain ⟨r, hr, hrow⟩ := hs.home p hp
    have hle := hs.last r hr
    have hne : p.competition ≠ id := by omega
    simp [hne]
  have hholding := holding_add_invitations_le visits id places
  -- Places may have been counted under this id before the competition was there.
  have hnone : places ≤ 0 → holding visits id places = 0 := by
    refine fun hle => List.countP_eq_zero.2 fun v _ hv => ?_
    simp only [Visit.holds, Bool.and_eq_true, List.any_eq_true] at hv
    obtain ⟨-, a, -, ha⟩ := hv
    unfold Asked.findsRoom at ha
    split at ha
    · simp only [Bool.and_eq_true, decide_eq_true_eq] at ha
      omega
    · cases ha
  unfold Bounded
  omega

/-- Whatever an operation leaves, the bound is kept for all competitions. -/
theorem bounded_written {s' : Store} (hp : v.Proceeds w op v') (hv : v.Proper)
    (hseen : ∀ a ∈ v.past, a.world.store.Extends w.store) (hs : w.store.Sound) (hmost : 0 < most)
    (hfew : (as ++ v :: bs).countP (·.isRunning) ≤ most) (hwr : Written w.store op s')
    (hup : w.store.CountsUp s') (h : ∀ c ∈ w.store.competitions,
      Bounded most w.store (as ++ v :: bs) c.id c.maxParticipants) :
    ∀ c ∈ s'.competitions, Bounded most s' (as ++ v' :: bs) c.id c.maxParticipants := by
  intro c hc
  cases hwr with
  | same hsame =>
    rw [hsame.competitions] at hc
    exact ((h c hc).after hp hs hfew).congr hsame.participants
  | create =>
    obtain ⟨hnext, heq⟩ := hs.last.addCompetition_eq hup
    rw [heq] at hc ⊢
    obtain hold | hnew := List.mem_append.1 hc
    · exact ((h c hold).after hp hs hfew).congr rfl
    · obtain rfl := List.mem_singleton.1 hnew
      have hid : w.store.lastId.toInt < w.store.nextId := by omega
      have hfew' := Nat.le_trans (running_after hp) hfew
      exact (bounded_create hs hmost hfew' hid _).congr rfl
  | rewrite hw =>
    rw [writeCompetition_eq_ok hw] at hc ⊢
    obtain ⟨r, hr, rfl⟩ := List.mem_map.1 hc
    rw [written_id, written_maxParticipants]
    exact ((h r hr).after hp hs hfew).congr rfl
  | add hw =>
    have hold : c ∈ w.store.competitions := by
      obtain ⟨-, rfl⟩ := addParticipant_eq_ok hw
      exact hc
    exact (h c hold).add hp hv hseen hs hw hold
  | replace hw =>
    have hold : c ∈ w.store.competitions := by
      rw [writeParticipant_eq_ok hw] at hc
      exact hc
    exact (h c hold).replace hp hv hw

end

end Steward.Desk
