import Steward.Proofs.Desk.Conduct

/-!
# All calls keep to the rules

Each call asks for nothing but what it may ask for and ends as it may, whatever else goes on
meanwhile. So do all visits on a floor (`Visit.Proper`).

* `Command.finishes`: every call keeps to its rules.
* `Floor.play_proper`: so does every visit.
* `Visit.insertion_refused`: a visit whose row was refused has failed and changed nothing.
* `Visit.ended_addition`: a visit that was to add a row did, or has failed and changed nothing, or
  has found an invitation to take up.
-/

namespace Steward.Desk

open Call Command Time

/-! ## Participant calls -/

section
variable {d : Desk} {cmd : Command} {competition player : Int}

/-- Adding and inviting find the competition, then room in it. -/
theorem finishes_addParticipant {standing : Standing} {invitedBy : Option Snowflake}
    (hadds : cmd.adds? = some (competition, player)) (haccepts : cmd.accepts? = none) :
    Finishes cmd (addParticipant d competition player standing invitedBy) [] := by
  refine follows_bind.2 (follows_competitionEntity allReads_nil fun w₁ c hc hp => ?_)
  refine follows_check_openNow hp fun w₂ hp => ?_
  refine follows_bind.2 (follows_ensurePlayer hp fun w₃ hp => ?_)
  refine follows_bind.2 (follows_newRow hp fun p w₄ hk hp => ?_)
  refine follows_bind.2 (follows_ensureNew hp fun w₅ hp => ?_)
  refine follows_bind.2 (follows_placesNow hp (fun r past hp => ?_) fun w₆ hroom hp => ?_)
  · exact follows_bind.2 (failed_of_reads hp _)
  · refine finishes_addRow hp ⟨hp.noInsertion, ?_, ⟨w₁, .competition? competition⟩, ?_⟩ ?_
    · rw [invitation?, haccepts]
      rfl
    · obtain ⟨hmem, hid⟩ := Store.competition?_eq_some hc
      refine ⟨by simp only [List.mem_cons, true_or, or_true], c, hmem, ?_, ?_⟩
      · rw [hid]
        exact (congrArg Prod.fst hk).symm
      · exact List.any_eq_true.2 ⟨_, List.mem_cons_self, hroom⟩
    · rw [hadds, hk]

theorem findsInvited_of_found {w : World} {p : Participant}
    (hp : w.store.participant? competition player = some p) (hi : p.standing = .invited) :
    (Asked.mk w (.participant? competition player)).findsInvited (competition, player) = true := by
  simp only [Asked.findsInvited, hp, hi, Option.any_some, decide_true, Bool.true_and]

/-- An invitation that was found is taken up at a later instant. -/
theorem finishes_takeUp {past : List Asked} {w : World} {p : Participant} (hp : AllReads past)
    (haccepts : cmd.accepts? = some (competition, player))
    (hadds : ∀ key, cmd.adds? = some key → key = (competition, player))
    (hmem : ⟨w, .participant? competition player⟩ ∈ past)
    (hfound : w.store.participant? competition player = some p) (hi : p.standing = .invited) :
    Finishes cmd (do writeMove (p.accept (← perform .now))) past := by
  refine follows_bind.2 (follows_look hp rfl fun w' hp => ?_)
  have hinvitation : cmd.invitation? (⟨w', .now⟩ :: past) = some (competition, player) := by
    have hany : (Asked.mk w' .now :: past).any (·.findsInvited (competition, player)) = true :=
      List.any_eq_true.2 ⟨_, List.mem_cons_of_mem _ hmem, findsInvited_of_found hfound hi⟩
    rw [invitation?, haccepts, Option.filter_some, if_pos hany]
  obtain ⟨-, hk⟩ := Store.participant?_eq_some hfound
  rw [accept_of_invited _ hi]
  refine finishes_writeMove hp ?_ fun key hkey => ?_
  · rintro _ ⟨⟩
    exact .inr (hinvitation.trans (congrArg some hk.symm))
  · rw [hadds key hkey]
    exact hinvitation

theorem finishes_acceptInvitation :
    Finishes (.acceptInvitation competition player) (acceptInvitation d competition player) [] := by
  refine follows_bind.2 (follows_competitionEntity allReads_nil fun w₁ c _ hp => ?_)
  refine follows_check_openNow hp fun w₂ hp => ?_
  refine follows_bind.2 (follows_look hp rfl fun w₃ hp => ?_)
  simp only [World.perform]
  cases hq : w₃.store.participant? competition player with
  | none => exact follows_refuse hp
  | some q =>
    refine grounded_ite.2 ⟨fun hi => ?_, fun _ => follows_refuse hp⟩
    exact finishes_takeUp hp rfl (by rintro _ ⟨⟩) List.mem_cons_self hq hi

theorem finishes_removeParticipant :
    Finishes (.removeParticipant competition player) (removeParticipant competition player) [] := by
  refine follows_bind.2 (follows_look allReads_nil rfl fun w₁ hp => ?_)
  simp only [World.perform]
  cases w₁.store.participant? competition player with
  | none => exact follows_refuse hp
  | some p =>
    refine follows_bind.2 (follows_look hp rfl fun w₂ hp => ?_)
    refine finishes_writeMove hp (fun q hq => .inl ?_) (by rintro _ ⟨⟩)
    unfold Participant.leave at hq
    split at hq
    · rw [← Except.ok.inj hq]
    · cases hq

/-- Nothing keeps a player from joining who was invited, or has no row where room was found. -/
theorem follows_joinBlocker {past : List Asked} {c : Competition} {existing : Option Participant}
    {Q : Option Refusal → List Asked → Prop} (hp : AllReads past)
    (hblocked : ∀ r past, AllReads past → Q (some r) past)
    (hinvited : ∀ q w, existing = some q → q.standing = .invited →
      AllReads (⟨w, .now⟩ :: past) → Q none (⟨w, .now⟩ :: past))
    (hroom : ∀ w w', existing = none →
      (Asked.mk w' (.countActive c.id)).findsRoom c.id c.maxParticipants = true →
      AllReads (⟨w', .countActive c.id⟩ :: ⟨w, .now⟩ :: past) →
      Q none (⟨w', .countActive c.id⟩ :: ⟨w, .now⟩ :: past)) :
    Follows cmd (joinBlocker d c existing) past Q := by
  refine follows_bind.2 (follows_openNow hp (fun r past hp => hblocked r past hp) fun w hp => ?_)
  cases existing with
  | some q =>
    cases hs : q.standing with
    | invited =>
      simp only [Option.map_some, hs]
      exact hinvited q w rfl hs hp
    | joined | left =>
      simp only [Option.map_some, hs]
      exact hblocked _ _ hp
  | none =>
    refine grounded_ite.2 ⟨fun _ => hblocked _ _ hp, fun _ => ?_⟩
    refine follows_bind.2 (follows_placesNow hp (fun r past hp => hblocked r past hp) ?_)
    exact fun w' hfree hp => hroom w w' rfl hfree hp

theorem finishes_join :
    Finishes (.join competition player) (join d competition player) [] := by
  refine follows_bind.2 (follows_competitionEntity allReads_nil fun w₁ c hc hp => ?_)
  refine follows_bind.2 (follows_ensurePlayer hp fun w₂ hp => ?_)
  refine follows_bind.2 (follows_look hp rfl fun w₃ hp => ?_)
  simp only [World.perform]
  refine follows_bind.2 (follows_joinBlocker hp (fun r past hp => ?_) (fun q w₄ hq hi hp => ?_)
    fun w₄ w₅ hnone hroom hp => ?_)
  · exact follows_bind.2 (failed_of_reads hp _)
  · rw [hq]
    exact finishes_takeUp hp rfl (by rintro _ ⟨⟩; rfl)
      (List.mem_cons_of_mem _ List.mem_cons_self) hq hi
  · rw [hnone]
    refine follows_bind.2 (follows_look hp rfl fun w₆ hp => ?_)
    refine finishes_addRow hp ⟨hp.noInsertion, ?_, ⟨w₁, .competition? competition⟩, ?_⟩ rfl
    · -- The row that was looked up is missing, so no invitation was found.
      simp [invitation?, accepts?, Asked.findsInvited, hnone]
    · obtain ⟨hmem, hid⟩ := Store.competition?_eq_some hc
      refine ⟨by simp only [List.mem_cons, true_or, or_true], c, hmem, hid, ?_⟩
      exact List.any_eq_true.2 ⟨_, List.mem_cons_of_mem _ List.mem_cons_self, hroom⟩

end

/-! ## Other calls -/

section
variable {d : Desk} {cmd : Command}

/-- A competition is written over after nothing but reads, and shown. -/
theorem finishes_writeShown {past : List Asked} {c : Competition} (hp : AllReads past)
    (hask : c.isCancelled = true ∨ cmd.liveCopy? past = some c.id) (hadds : cmd.adds? = none) :
    Finishes cmd (do check (← perform (.writeCompetition c)); viewNow d c) past := by
  refine follows_bind.2 (grounded_perform.2 ⟨⟨hp.noInsertion, hask⟩, fun w => ?_⟩)
  refine follows_bind.2 (grounded_check.2 ?_)
  simp only [World.perform]
  cases hw : w.store.writeCompetition c with
  | error r =>
    have hidle : (Asked.mk w (.writeCompetition c)).Idle := Asked.idle_of_refused hw rfl
    exact failed_of_refused hp hidle (by rintro ⟨⟩)
  | ok s =>
    have h₁ : NoInsertion (⟨w, .writeCompetition c⟩ :: past) := hp.noInsertion.cons _ _ rfl
    refine follows_bind.2 (follows_read h₁ rfl fun w₂ => ?_)
    have h₂ := h₁.cons w₂ (.countActive c.id) rfl
    refine follows_bind.2 (follows_read h₂ rfl fun w₃ => grounded_pure.2 ?_)
    refine succeeded_of_noInsertion (h₂.cons _ _ rfl) fun key hkey => ?_
    rw [hadds] at hkey
    cases hkey

theorem finishes_cancelCompetition {id : Int} {user : Snowflake} {admin : Bool} :
    Finishes (.cancelCompetition id user admin) (cancelCompetition d id user admin) [] := by
  refine follows_bind.2 (follows_competitionEntity allReads_nil fun w₁ c _ hp => ?_)
  refine follows_bind.2 (follows_check hp fun _ => ?_)
  refine grounded_ite.2 ⟨fun _ => follows_bind.2 (follows_refuse hp), fun _ => ?_⟩
  refine follows_bind.2 (follows_look hp rfl fun w₂ hp => ?_)
  exact finishes_writeShown hp (.inl rfl) rfl

theorem finishes_updateDates {id : Int} {user : Snowflake} {admin : Bool} {dates : Dates} :
    Finishes (.updateDates id user admin dates) (updateDates d id user admin dates) [] := by
  refine follows_bind.2 (follows_competitionEntity allReads_nil fun w₁ c hc hp => ?_)
  refine follows_bind.2 (follows_check hp fun _ => ?_)
  refine follows_bind.2 (follows_look hp rfl fun w₂ hp => ?_)
  refine grounded_ite.2 ⟨fun _ => follows_bind.2 (follows_refuse hp), fun hl => ?_⟩
  refine grounded_ite.2 ⟨fun _ => follows_bind.2 (follows_refuse hp), fun _ => ?_⟩
  refine follows_bind.2 (follows_check hp fun _ => ?_)
  refine follows_bind.2 (follows_look hp rfl fun w₃ hp => ?_)
  obtain ⟨-, hid⟩ := Store.competition?_eq_some hc
  refine finishes_writeShown hp (.inr ?_) rfl
  rw [Bool.not_eq_true] at hl
  simp [liveCopy?, reschedules?, Asked.findsLive, hc, hl, Competition.setDates, hid]

theorem finishes_createCompetition {server owner : Snowflake} {admin : Bool} {r : Request} :
    Finishes (.createCompetition server owner admin r)
      (createCompetition d server owner admin r) [] := by
  refine follows_bind.2 (follows_of_looks (looks_canCreateCompetition d server owner admin)
    allReads_nil fun preview past hp => ?_)
  cases preview with
  | denied reason => exact follows_bind.2 (follows_refuse hp)
  | wait reason secs => exact follows_bind.2 (follows_refuse hp)
  | allowed =>
    refine follows_bind.2 ?_
    cases checkRequest d r with
    | error e => exact failed_of_reads hp e
    | ok _ =>
      refine follows_bind.2 (follows_look hp rfl fun w₁ hp => ?_)
      refine follows_bind.2 (follows_check hp fun _ => ?_)
      refine follows_bind.2 (follows_look hp rfl fun w₂ hp => ?_)
      refine follows_bind.2 (follows_check hp fun _ => ?_)
      refine follows_bind.2 (grounded_perform.2 ⟨⟨hp.noInsertion, trivial⟩, fun w₃ => ?_⟩)
      have h₃ := hp.noInsertion.cons w₃ (.addCompetition (r.toDraft server owner)) rfl
      refine follows_bind.2 (grounded_perform.2 ⟨⟨h₃, trivial⟩, fun w₄ => ?_⟩)
      exact succeeded_of_noInsertion (h₃.cons _ _ rfl) (by rintro _ ⟨⟩)

theorem finishes_grantPermission {server user : Snowflake} {permission : Permission}
    {by' : Snowflake} :
    Finishes (.grantPermission server user permission by')
      (grantPermission server user permission by') [] := by
  have h₀ := allReads_nil.noInsertion
  refine follows_bind.2 (follows_read h₀ rfl fun w₁ => ?_)
  have h₁ := h₀.cons w₁ .now rfl
  refine grounded_perform.2 ⟨⟨h₁, trivial⟩, fun w₂ => ?_⟩
  exact succeeded_of_noInsertion (h₁.cons _ _ rfl) (by rintro _ ⟨⟩)

theorem finishes_revokePermission {server user : Snowflake} {permission : Permission} :
    Finishes (.revokePermission server user permission)
      (revokePermission server user permission) [] := by
  have h₀ := allReads_nil.noInsertion
  refine grounded_perform.2 ⟨⟨h₀, trivial⟩, fun w₁ => ?_⟩
  exact succeeded_of_noInsertion (h₀.cons _ _ rfl) (by rintro _ ⟨⟩)

end

/-! ## All calls -/

/-- A call of reads ends as it may. -/
theorem finishes_of_looks {d : Desk} (c : Command) (h : Looks (c.call d))
    (hadds : c.adds? = none) : Finishes c (c.call d) [] := by
  refine follows_of_looks h allReads_nil fun _ past hp => ?_
  refine succeeded_of_noInsertion hp.noInsertion fun key hkey => ?_
  rw [hadds] at hkey
  cases hkey

theorem Command.finishes (d : Desk) (c : Command) : Finishes c (c.call d) [] := by
  cases c with
  | createCompetition => exact finishes_createCompetition
  | cancelCompetition => exact finishes_cancelCompetition
  | updateDates => exact finishes_updateDates
  | addParticipant => exact finishes_addParticipant rfl rfl
  | inviteParticipant => exact finishes_addParticipant rfl rfl
  | acceptInvitation => exact finishes_acceptInvitation
  | removeParticipant => exact finishes_removeParticipant
  | join => exact finishes_join
  | grantPermission => exact finishes_grantPermission
  | revokePermission => exact finishes_revokePermission
  | getCompetition | competitionEntity | listCompetitions | canJoin | listParticipants | activeCount
  | hasPermission | listPermissions | canCreateCompetition =>
    exact finishes_of_looks _ (Command.looks d rfl) rfl

/-! ## Visits -/

namespace Visit

/-- Whatever the visit still asks for is what its command may ask for, and it ends as it may. -/
abbrev Proper (v : Visit) : Prop := v.Grounded MayAsk MayEnd

/-- The key of the invitation that a running visit has found and may take up. -/
def invitation? (v : Visit) : Option (Int × Int) :=
  if v.isRunning then v.command.invitation? v.past else none

theorem start_proper (d : Desk) (c : Command) : (start d c).Proper := by
  refine Script.Grounded.mono (Command.finishes d c) fun r past hr => ?_
  cases r <;> exact hr

@[simp] theorem invitation?_start (d : Desk) (c : Command) : (start d c).invitation? = none := by
  unfold Visit.invitation?
  split
  · exact Option.filter_eq_none_iff.2 fun _ _ => Bool.false_ne_true
  · rfl

variable {v v' : Visit} {w : World} {op : StoreOp} {a : Asked} {key : Int × Int}

theorem invitation?_of_running (h : v.isRunning = true) :
    v.invitation? = v.command.invitation? v.past := if_pos h

/-- An invitation that a visit may take up after one more operation it had found before, or has
found with the last. -/
theorem Proceeds.invitation? (h : Proceeds w op v v') (hk : v'.invitation? = some key) :
    v.invitation? = some key ∨ (Asked.mk w op).findsInvited key = true := by
  rw [invitation?_of_running h.isRunning]
  unfold Visit.invitation? at hk
  split at hk
  · rw [h.command, h.past] at hk
    exact filter_any_cons hk
  · cases hk

/-- Adding a row is the last thing that a visit does. -/
theorem done_of_insertion (h : v.Proper) (ha : a ∈ v.past) (hi : a.isInsertion = true) :
    v.isRunning = false := by
  obtain ⟨cmd, past, rest⟩ := v
  cases rest with
  | done r => rfl
  | ask op next =>
    rw [h.1.1 a ha] at hi
    cases hi

/-- A visit whose row was refused has failed with that refusal and changed nothing. -/
theorem insertion_refused {p : Participant} {r : Refusal} (h : v.Proper) (ha : a ∈ v.past)
    (hop : a.op = .addParticipant p) (hr : a.world.store.addParticipant p = .error r) :
    v.outcome? = some (.error (.refusal .alreadyParticipant)) ∧ ∀ a ∈ v.past, a.Idle := by
  have hins : a.isInsertion = true := by
    rw [Asked.isInsertion, hop]
  obtain ⟨cmd, past, rest⟩ := v
  cases rest with
  | ask op next => cases done_of_insertion h ha hins
  | done res =>
    cases res with
    | ok x =>
      obtain ⟨key, hkey⟩ := Succeeded.inserted h a ha hins
      simp only [Asked.inserts, hop, hr, Except.isOk, Except.toBool, Bool.and_false,
        Bool.false_eq_true] at hkey
    | error e =>
      obtain rfl := Failed.refused h a ha hins
      exact ⟨rfl, Failed.idle h⟩

/-- A visit that was to add a row and has ended has added it or has found an invitation to take up,
or it has failed and changed nothing. -/
theorem ended_addition {r : Except Setback v.command.Answer} (h : v.Proper)
    (hr : v.outcome? = some r) (hadds : v.command.adds? = some key) :
    v.past.any (·.inserts key) = true ∨ v.command.invitation? v.past = some key ∨
      (∃ e, r = .error e) ∧ ∀ a ∈ v.past, a.Idle := by
  have hend := h.of_outcome hr
  cases r with
  | ok x => exact (Succeeded.added hend key hadds).imp_right .inl
  | error e => exact .inr (.inr ⟨⟨e, rfl⟩, Failed.idle hend⟩)

end Visit

/-- Every visit is proper, whatever turns there were. -/
theorem Floor.play_proper (d : Desk) (most : Nat) (w : World) (turns : List Turn) :
    ∀ v ∈ ((fresh w).play d most turns).visits, v.Proper := by
  refine play_grounded (Visit.start_proper d) ?_ turns
  intro v hv
  cases hv

end Steward.Desk
