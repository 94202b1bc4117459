import Steward.Proofs.Desk.Floor
import Steward.Proofs.Desk.ParticipantCalls

/-!
# What calls ask for, whatever else goes on

Between two operations of a call the store may change, so what a call writes rests on what it has
found before. `Command.MayAsk` says what each call writes after which findings, and `Command.MayEnd`
what it has done when it ends. `Command.Follows` says that a part of a call keeps to both, whatever
worlds it meets.

* `follows_look`, `follows_of_looks`: reads are always allowed.
* `follows_competitionEntity` and the like: what the parts that calls share have found.
* `finishes_writeMove`, `finishes_addRow`: a write that may be refused is the last thing asked for.
-/

namespace Steward

/-! ## Findings -/

namespace Asked

/-- An invited row of the key was found. -/
def findsInvited (key : Int × Int) (a : Asked) : Bool :=
  match a.op with
  | .participant? competition player =>
    (competition, player) = key &&
      (a.world.store.participant? competition player).any (·.standing = .invited)
  | _ => false

/-- The competition was found, and was not cancelled. -/
def findsLive (id : Int) (a : Asked) : Bool :=
  match a.op with
  | .competition? i => i = id && (a.world.store.competition? i).any fun c => !c.isCancelled
  | _ => false

/-- Fewer than `places` places of the competition were found taken. -/
def findsRoom (id places : Int) (a : Asked) : Bool :=
  match a.op with
  | .countActive i => i = id && (a.world.store.countActive i : Int) < places
  | _ => false

/-- A row was to be added. -/
def isInsertion (a : Asked) : Bool :=
  match a.op with
  | .addParticipant _ => true
  | _ => false

/-- A row of the key was added. -/
def inserts (key : Int × Int) (a : Asked) : Bool :=
  match a.op with
  | .addParticipant p => p.key = key && (a.world.store.addParticipant p).isOk
  | _ => false

end Asked

/-- No row was to be added. -/
def NoInsertion (past : List Asked) : Prop := ∀ a ∈ past, a.isInsertion = false

variable {past : List Asked}

theorem AllReads.noInsertion (h : AllReads past) : NoInsertion past := by
  intro a ha
  obtain ⟨w, op⟩ := a
  have hop : op.isRead = true := h _ ha
  cases op <;> first | rfl | cases hop

theorem NoInsertion.cons (h : NoInsertion past) (w : World) (op : StoreOp)
    (hop : (Asked.mk w op).isInsertion = false) : NoInsertion (⟨w, op⟩ :: past) :=
  List.forall_mem_cons.2 ⟨hop, h⟩

theorem NoInsertion.vacuous {P : Asked → Prop} (h : NoInsertion past) :
    ∀ a ∈ past, a.isInsertion = true → P a := by
  intro a ha hi
  rw [h a ha] at hi
  cases hi

namespace Desk

open Call Time

namespace Command

/-- The key of the invitation that a call may take up. -/
def accepts? : Command → Option (Int × Int)
  | acceptInvitation competition player | join competition player => some (competition, player)
  | _ => none

/-- The key of the row that a call may add. -/
def adds? : Command → Option (Int × Int)
  | addParticipant competition player _ _ | inviteParticipant competition player _
  | join competition player => some (competition, player)
  | _ => none

/-- The competition that a call may give other dates. -/
def reschedules? : Command → Option Int
  | updateDates id _ _ _ => some id
  | _ => none

/-- The key of the invitation that a call has found and may take up. -/
def invitation? (cmd : Command) (past : List Asked) : Option (Int × Int) :=
  cmd.accepts?.filter fun key => past.any (·.findsInvited key)

/-- The competition that a call has found uncancelled and may give other dates. -/
def liveCopy? (cmd : Command) (past : List Asked) : Option Int :=
  cmd.reschedules?.filter fun id => past.any (·.findsLive id)

/-- What a call has found among more operations, it had found before or finds with the last. -/
theorem filter_any_cons {α : Type} {o : Option α} {f : α → Asked → Bool} {b : α} {a : Asked}
    {past : List Asked} (h : (o.filter fun b => (a :: past).any (f b)) = some b) :
    (o.filter fun b => past.any (f b)) = some b ∨ f b a = true := by
  rw [Option.filter_eq_some_iff] at h
  obtain ⟨ho, hany⟩ := h
  rw [List.any_cons, Bool.or_eq_true] at hany
  obtain ha | hpast := hany
  · exact .inr ha
  · exact .inl (Option.filter_eq_some_iff.2 ⟨ho, hpast⟩)

/-- What a call may ask for. Adding a row is the last thing that it asks for, after it has found the
competition and room in it, and no invitation. A row is written over as one that has left, or where
an invitation was found. A competition is written over as cancelled, or where it was found to be
live. -/
def MayAsk (cmd : Command) (past : List Asked) (op : StoreOp) : Prop :=
  NoInsertion past ∧
  match op with
  | .addParticipant p => cmd.invitation? past = none ∧
    ∃ a ∈ past, ∃ c ∈ a.world.store.competitions, c.id = p.competition ∧
      past.any (·.findsRoom c.id c.maxParticipants) = true
  | .writeParticipant p => p.standing = .left ∨ cmd.invitation? past = some p.key
  | .writeCompetition c => c.isCancelled = true ∨ cmd.liveCopy? past = some c.id
  | _ => True

/-- What a call that fails has done: nothing. If its row was refused it fails with that refusal. -/
structure Failed (e : Setback) (past : List Asked) : Prop where
  idle : ∀ a ∈ past, a.Idle
  refused : ∀ a ∈ past, a.isInsertion = true → e = .refusal .alreadyParticipant

/-- What a call that succeeds has done. It has had no row refused, and if it was to add one, it did
or has found an invitation. -/
structure Succeeded (cmd : Command) (past : List Asked) : Prop where
  inserted : ∀ a ∈ past, a.isInsertion = true → ∃ key, a.inserts key = true
  added : ∀ key, cmd.adds? = some key →
    past.any (·.inserts key) = true ∨ cmd.invitation? past = some key

/-- How a call may end. -/
def MayEnd (cmd : Command) (r : Except Setback cmd.Answer) (past : List Asked) : Prop :=
  match r with
  | .ok _ => Succeeded cmd past
  | .error e => Failed e past

/-- Whatever a part of a call asks for is what the call may ask for, and if it fails the call may
fail. -/
def Follows {α : Type} (cmd : Command) (c : Call α) (past : List Asked)
    (Q : α → List Asked → Prop) : Prop :=
  c.Grounded cmd.MayAsk past Q Failed

/-- A last part of a call: once it ends, the call has succeeded or failed. -/
abbrev Finishes {α : Type} (cmd : Command) (c : Call α) (past : List Asked) : Prop :=
  Follows cmd c past fun _ past => Succeeded cmd past

end Command

open Command

/-! ## Parts of calls -/

section
variable {α β : Type} {cmd : Command} {past : List Asked} {Q : α → List Asked → Prop}

theorem failed_of_reads (h : AllReads past) (e : Setback) : Failed e past where
  idle := h.idle
  refused := h.noInsertion.vacuous

/-- A write that was refused ends a call that has only read. -/
theorem failed_of_refused {op : StoreOp} {w : World} {e : Setback} (hp : AllReads past)
    (hidle : (Asked.mk w op).Idle)
    (he : (Asked.mk w op).isInsertion = true → e = .refusal .alreadyParticipant) :
    Failed e (⟨w, op⟩ :: past) where
  idle := List.forall_mem_cons.2 ⟨hidle, hp.idle⟩
  refused := List.forall_mem_cons.2 ⟨he, (failed_of_reads hp e).refused⟩

theorem succeeded_of_noInsertion (h : NoInsertion past)
    (hadds : ∀ key, cmd.adds? = some key → cmd.invitation? past = some key) :
    Succeeded cmd past where
  inserted := h.vacuous
  added key hkey := .inr (hadds key hkey)

theorem mayAsk_of_isRead (cmd : Command) {op : StoreOp} (h : NoInsertion past)
    (hop : op.isRead = true) : cmd.MayAsk past op := by
  refine ⟨h, ?_⟩
  cases op <;> trivial

theorem follows_bind {c : Call α} {f : α → Call β} {Q : β → List Asked → Prop} :
    Follows cmd (c >>= f) past Q ↔
      Follows cmd c past fun a past => Follows cmd (f a) past Q :=
  grounded_bind

/-- A part of reads, none of which matters later. -/
theorem follows_of_looks {c : Call α} (h : Looks c) (hp : AllReads past)
    (hq : ∀ a past, AllReads past → Q a past) : Follows cmd c past Q := by
  have hreads := Script.Asks.grounded h hp fun past op hp hop =>
    mayAsk_of_isRead cmd hp.noInsertion hop
  refine Script.Grounded.mono hreads fun r past hr => ?_
  cases r with
  | ok a => exact hq a past hr
  | error e => exact failed_of_reads hr e

theorem follows_read {op : StoreOp} {Q : op.Answer → List Asked → Prop} (hp : NoInsertion past)
    (hop : op.isRead = true) (h : ∀ w, Q (World.perform w op).1 (⟨w, op⟩ :: past)) :
    Follows (α := no_index op.Answer) cmd (perform op) past Q :=
  grounded_perform.2 ⟨mayAsk_of_isRead cmd hp hop, h⟩

/-- One more read after nothing but reads. -/
theorem follows_look {op : StoreOp} {Q : op.Answer → List Asked → Prop} (hp : AllReads past)
    (hop : op.isRead = true)
    (h : ∀ w, AllReads (⟨w, op⟩ :: past) → Q (World.perform w op).1 (⟨w, op⟩ :: past)) :
    Follows (α := no_index op.Answer) cmd (perform op) past Q :=
  follows_read hp.noInsertion hop fun w => h w (hp.cons w op hop)

theorem follows_refuse {r : Refusal} (hp : AllReads past) : Follows cmd (refuse r) past Q :=
  failed_of_reads hp _

/-- A check after nothing but reads. -/
theorem follows_check {c : Except Refusal Unit} {Q : Unit → List Asked → Prop} (hp : AllReads past)
    (h : c = .ok () → Q () past) : Follows cmd (check c) past Q := by
  refine grounded_check.2 ?_
  cases c with
  | ok _ => exact h rfl
  | error r => exact failed_of_reads hp _

theorem follows_competitionEntity {id : Int} {Q : Competition → List Asked → Prop}
    (hp : AllReads past)
    (h : ∀ w c, w.store.competition? id = some c → AllReads (⟨w, .competition? id⟩ :: past) →
      Q c (⟨w, .competition? id⟩ :: past)) :
    Follows cmd (competitionEntity id) past Q := by
  refine follows_bind.2 (follows_look hp rfl fun w hp => ?_)
  simp only [World.perform]
  cases hc : w.store.competition? id with
  | some c => exact h w c hc hp
  | none => exact failed_of_reads hp _

theorem follows_ensurePlayer {player : Int} {Q : Unit → List Asked → Prop} (hp : AllReads past)
    (h : ∀ w, AllReads (⟨w, .player? player⟩ :: past) → Q () (⟨w, .player? player⟩ :: past)) :
    Follows cmd (ensurePlayer player) past Q := by
  refine follows_bind.2 (follows_look hp rfl fun w hp => ?_)
  simp only [World.perform]
  cases w.store.player? player with
  | some _ => exact h w hp
  | none => exact follows_refuse hp

/-- A competition that is found open, is so at an instant that was read. -/
theorem follows_openNow {d : Desk} {c : Competition} {Q : Except Refusal Unit → List Asked → Prop}
    (hp : AllReads past) (hclosed : ∀ r past, AllReads past → Q (.error r) past)
    (hopen : ∀ w, AllReads (⟨w, .now⟩ :: past) → Q (.ok ()) (⟨w, .now⟩ :: past)) :
    Follows cmd (openNow d c) past Q := by
  refine grounded_ite.2 ⟨fun _ => grounded_pure.2 (hclosed _ _ hp), fun _ => ?_⟩
  refine follows_bind.2 (follows_look hp rfl fun w hp => grounded_pure.2 ?_)
  cases checkOpen d c (World.perform w .now).1 with
  | ok _ => exact hopen w hp
  | error r => exact hclosed r _ hp

theorem follows_check_openNow {d : Desk} {c : Competition} {f : Unit → Call α} (hp : AllReads past)
    (h : ∀ w, AllReads (⟨w, .now⟩ :: past) → Follows cmd (f ()) (⟨w, .now⟩ :: past) Q) :
    Follows cmd (openNow d c >>= fun r => check r >>= f) past Q := by
  refine follows_bind.2 (follows_openNow hp (fun r past hp => ?_) fun w hp => ?_)
  · exact follows_bind.2 (failed_of_reads hp _)
  · exact follows_bind.2 (h w hp)

theorem follows_ensureNew {competition player : Int} {wanted : Standing}
    {Q : Unit → List Asked → Prop} (hp : AllReads past)
    (h : ∀ w, AllReads (⟨w, .participant? competition player⟩ :: past) →
      Q () (⟨w, .participant? competition player⟩ :: past)) :
    Follows cmd (ensureNew competition player wanted) past Q := by
  refine follows_bind.2 (follows_look hp rfl fun w hp => ?_)
  simp only [World.perform]
  cases w.store.participant? competition player with
  | some _ => exact follows_refuse hp
  | none => exact h w hp

/-- A new row is of its competition and player, whatever its standing. -/
theorem follows_newRow {competition player : Int} {standing : Standing}
    {invitedBy : Option Snowflake} {Q : Participant → List Asked → Prop} (hp : AllReads past)
    (h : ∀ p w, p.key = (competition, player) → AllReads (⟨w, .now⟩ :: past) →
      Q p (⟨w, .now⟩ :: past)) :
    Follows cmd (newRow competition player standing invitedBy) past Q := by
  cases standing with
  | joined => exact follows_bind.2 (follows_look hp rfl fun w hp => h _ w rfl hp)
  | invited => exact follows_bind.2 (follows_look hp rfl fun w hp => h _ w rfl hp)
  | left => exact failed_of_reads hp _

/-- Room is found by counting. -/
theorem follows_placesNow {c : Competition} {Q : Except Refusal Unit → List Asked → Prop}
    (hp : AllReads past) (hfull : ∀ r past, AllReads past → Q (.error r) past)
    (hroom : ∀ w, (Asked.mk w (.countActive c.id)).findsRoom c.id c.maxParticipants = true →
      AllReads (⟨w, .countActive c.id⟩ :: past) → Q (.ok ()) (⟨w, .countActive c.id⟩ :: past)) :
    Follows cmd (placesNow c) past Q := by
  refine follows_bind.2 (follows_look hp rfl fun w hp => grounded_pure.2 ?_)
  simp only [World.perform]
  cases hf : checkPlaces c (w.store.countActive c.id) with
  | error r => exact hfull r _ hp
  | ok _ =>
    refine hroom w ?_ hp
    have hlt := checkPlaces_eq_ok hf
    simpa only [Asked.findsRoom, decide_true, Bool.true_and, decide_eq_true_eq] using hlt

/-- A row is written over after nothing but reads. -/
theorem finishes_writeMove {move : Except Participant.IllegalMove Participant} (hp : AllReads past)
    (h : ∀ p, move = .ok p → p.standing = .left ∨ cmd.invitation? past = some p.key)
    (hadds : ∀ key, cmd.adds? = some key → cmd.invitation? past = some key) :
    Finishes cmd (writeMove move) past := by
  cases move with
  | error m => exact follows_refuse hp
  | ok p =>
    refine follows_bind.2 (grounded_perform.2 ⟨⟨hp.noInsertion, h p rfl⟩, fun w => ?_⟩)
    refine follows_bind.2 (grounded_check.2 ?_)
    simp only [World.perform]
    cases hw : w.store.writeParticipant p with
    | ok s => exact succeeded_of_noInsertion (hp.noInsertion.cons _ _ rfl) hadds
    | error r =>
      have hidle : (Asked.mk w (.writeParticipant p)).Idle := Asked.idle_of_refused hw rfl
      exact failed_of_refused hp hidle (by rintro ⟨⟩)

/-- A row is added after nothing but reads. -/
theorem finishes_addRow {p : Participant} (hp : AllReads past)
    (hask : cmd.MayAsk past (.addParticipant p)) (hadds : cmd.adds? = some p.key) :
    Finishes cmd (do check (← perform (.addParticipant p)); return p) past := by
  refine follows_bind.2 (grounded_perform.2 ⟨hask, fun w => ?_⟩)
  refine follows_bind.2 (grounded_check.2 ?_)
  simp only [World.perform]
  cases hw : w.store.addParticipant p with
  | ok s =>
    have hins : (Asked.mk w (.addParticipant p)).inserts p.key = true := by
      simp only [Asked.inserts, hw, decide_true, Bool.true_and]
      rfl
    refine { inserted := ?_, added := ?_ }
    · exact List.forall_mem_cons.2 ⟨fun _ => ⟨p.key, hins⟩, hask.1.vacuous⟩
    · intro key hkey
      obtain rfl := Option.some.inj (hadds.symm.trans hkey)
      exact .inl (List.any_eq_true.2 ⟨_, List.mem_cons_self, hins⟩)
  | error r =>
    have hidle : (Asked.mk w (.addParticipant p)).Idle := Asked.idle_of_refused hw rfl
    have hr : r = .alreadyParticipant := Store.addParticipant_eq_error hw
    exact failed_of_refused hp hidle fun _ => congrArg Setback.refusal hr

end

end Desk

end Steward
