import Steward.Desk.Basic

/-!
# Runs of scripts in passing time

`Script.Runs pace s w a w'`: from the world `w` the script `s` may come to the answer `a` in the
world `w'`, where the clock may move before each operation, as far as `pace` allows.
`Call.Ensures pace c w Q E` says of every run of a service call that `Q` holds of its result and of
the world after it, or `E` of its setback.

* `Script.runs_run`: the run during which the clock stands still is one of them.
* `Script.ensures_bind`, `Call.ensures_bind`: a script in two parts ensures what its second part
  ensures after whatever its first part may leave.
* `Call.Does`: a call that fails leaves the store as it was. Each call's effect is stated with it.
* `Call.Asks`: a call that asks for no other operations than those given.
* `Call.Reads`: a call that leaves the store as it was in any case. So does one that asks for
  nothing but reads (`Call.Asks.reads`).
* `Call.alone`: what a call answers, and the world it leaves, when no other call runs between its
  operations and the clock stands still. `Call.runs_of_alone`: that is one of its runs.
-/

namespace Steward

open Time

/-! ## Time -/

/-- How the clock may move. -/
structure Pace where
  moves : Instant → Instant → Prop
  refl : ∀ t, moves t t
  trans : ∀ {t u v}, moves t u → moves u v → moves t v

namespace Pace

/-- The clock may be set to any instant. -/
def any : Pace := ⟨fun _ _ => True, fun _ => trivial, fun _ _ => trivial⟩

/-- The clock never goes back. -/
def forward : Pace := ⟨(· ≤ ·), Instant.le_refl, Instant.le_trans⟩

end Pace

/-- Whether an operation writes nothing. -/
def StoreOp.isRead : StoreOp → Bool
  | now | competition? _ | competitionsOf _ | participant? _ _ | participantsOf _ | countActive _
  | player? _ | grant? _ _ _ | grantsOf _ | lastCreation? _ => true
  | addCompetition _ | writeCompetition _ | addParticipant _ | writeParticipant _ | addGrant _
  | removeGrant _ _ _ | recordCreation _ _ _ => false

namespace World

/-- The world without rows. -/
def fresh (t : Instant) : World := ⟨.empty, t⟩

/-- No operation on the store moves the clock. -/
@[simp] theorem perform_clock (w : World) (op : StoreOp) : (w.perform op).2.clock = w.clock := by
  have attempt_clock : ∀ s, (w.attempt s).2.clock = w.clock := fun s => by cases s <;> rfl
  cases op <;> first | rfl | exact attempt_clock _

/-- A read leaves the world as it is. -/
theorem perform_of_isRead {op : StoreOp} (h : op.isRead = true) (w : World) :
    (w.perform op).2 = w := by
  cases op <;> first | rfl | cases h

/-- Nothing is written while time passes from `w` to `w'`. -/
structure Idle (pace : Pace) (w w' : World) : Prop where
  store : w'.store = w.store
  clock : pace.moves w.clock w'.clock

/-- An instant that the clock passes between `w` and `w'`. -/
structure During (pace : Pace) (w : World) (t : Instant) (w' : World) : Prop where
  before : pace.moves w.clock t
  after : pace.moves t w'.clock

theorem Idle.refl (pace : Pace) (w : World) : w.Idle pace w := ⟨rfl, pace.refl _⟩

end World

/-! ## Scripts -/

namespace Script

variable {α β : Type} {pace : Pace}

/-- The answers and worlds that a script may come to. -/
inductive Runs (pace : Pace) : Script α → World → α → World → Prop
  | done {a : α} {w : World} : Runs pace (.done a) w a w
  | ask {op : StoreOp} {next : op.Answer → Script α} {w w' : World} {t : Instant} {a : α} :
      pace.moves w.clock t →
      Runs pace (next (World.perform ⟨w.store, t⟩ op).1) (World.perform ⟨w.store, t⟩ op).2 a w' →
      Runs pace (.ask op next) w a w'

/-- The run during which the clock stands still. -/
theorem runs_run (s : Script α) (w : World) : s.Runs pace w (s.run w).1 (s.run w).2 := by
  induction s generalizing w with
  | done a => exact .done
  | ask op next ih => exact .ask (pace.refl _) (ih _ _)

theorem run_clock (s : Script α) (w : World) : (s.run w).2.clock = w.clock := by
  induction s generalizing w with
  | done a => rfl
  | ask op next ih => exact (ih _ _).trans (World.perform_clock w op)

/-- Time passes during a run as the pace allows. -/
theorem Runs.clock {s : Script α} {w w' : World} {a : α} (h : s.Runs pace w a w') :
    pace.moves w.clock w'.clock := by
  induction h with
  | done => exact pace.refl _
  | ask ht _ ih => exact pace.trans ht (by simpa using ih)

/-- What holds of the answer and the world at the end of every run. -/
def Ensures (pace : Pace) (s : Script α) (w : World) (Q : α → World → Prop) : Prop :=
  ∀ a w', s.Runs pace w a w' → Q a w'

theorem ensures_done {a : α} {w : World} {Q : α → World → Prop} :
    (done a).Ensures pace w Q ↔ Q a w := by
  constructor
  · intro h; exact h a w .done
  · rintro h _ _ ⟨⟩; exact h

theorem ensures_ask {op : StoreOp} {next : op.Answer → Script α} {w : World}
    {Q : α → World → Prop} :
    (ask op next).Ensures pace w Q ↔ ∀ t, pace.moves w.clock t →
      (next (World.perform ⟨w.store, t⟩ op).1).Ensures pace
        (World.perform ⟨w.store, t⟩ op).2 Q := by
  constructor
  · intro h t ht a w' hr; exact h a w' (.ask ht hr)
  · intro h a w' hr
    cases hr with
    | ask ht hr => exact h _ ht a w' hr

theorem ensures_bind {s : Script α} {f : α → Script β} {w : World} {Q : β → World → Prop} :
    (s.bind f).Ensures pace w Q ↔ s.Ensures pace w fun a w' => (f a).Ensures pace w' Q := by
  induction s generalizing w with
  | done a => exact (ensures_done (Q := fun a w' => (f a).Ensures pace w' Q)).symm
  | ask op next ih =>
    rw [ensures_ask, bind, ensures_ask]
    exact forall_congr' fun t => imp_congr_right fun _ => ih _

end Script

/-! ## Operations of scripts -/

namespace Script

variable {α β : Type} {pace : Pace} {p : StoreOp → Prop}

/-- A script that asks for no other operations, whatever it is answered. -/
def Asks (p : StoreOp → Prop) : Script α → Prop
  | done _ => True
  | ask op next => p op ∧ ∀ r, (next r).Asks p

theorem asks_bind {s : Script α} {f : α → Script β} (hs : s.Asks p) (hf : ∀ a, (f a).Asks p) :
    (s.bind f).Asks p := by
  induction s with
  | done a => exact hf a
  | ask op next ih => exact ⟨hs.1, fun r => ih r (hs.2 r)⟩

/-- A script of reads leaves the store as it was. -/
theorem Asks.idle {s : Script α} (h : s.Asks (·.isRead = true)) {w w' : World} {a : α}
    (hr : s.Runs pace w a w') : w.Idle pace w' := by
  induction hr with
  | done => exact .refl pace _
  | ask ht _ ih =>
    have hlater := ih (h.2 _)
    rw [World.perform_of_isRead h.1] at hlater
    exact ⟨hlater.store, pace.trans ht hlater.clock⟩

end Script

/-! ## Calls -/

namespace Call

variable {α β : Type} {pace : Pace} {w : World} {Q : α → World → Prop} {E : Setback → World → Prop}

/-- What holds at the end of every run of a call: `Q` of its result, or `E` of its setback. -/
def Ensures (pace : Pace) (c : Call α) (w : World) (Q : α → World → Prop)
    (E : Setback → World → Prop) : Prop :=
  Script.Ensures pace (ExceptT.run c) w fun r w' =>
    match r with
    | .ok a => Q a w'
    | .error e => E e w'

theorem ensures_pure {a : α} : Ensures pace (pure a) w Q E ↔ Q a w := Script.ensures_done

theorem ensures_throw {e : Setback} : Ensures pace (throw e) w Q E ↔ E e w := Script.ensures_done

theorem ensures_refuse {r : Refusal} : Ensures pace (refuse r) w Q E ↔ E (.refusal r) w :=
  Script.ensures_done

theorem ensures_check {c : Except Refusal Unit} {Q : Unit → World → Prop} :
    Ensures pace (check c) w Q E ↔
      match c with
      | .ok _ => Q () w
      | .error r => E (.refusal r) w := by
  cases c <;> exact Script.ensures_done

theorem ensures_ite {p : Prop} [Decidable p] {c c' : Call α} :
    Ensures pace (if p then c else c') w Q E ↔
      (p → Ensures pace c w Q E) ∧ (¬p → Ensures pace c' w Q E) := by
  by_cases h : p
  · rw [if_pos h]
    exact ⟨fun hc => ⟨fun _ => hc, fun hn => absurd h hn⟩, fun hc => hc.1 h⟩
  · rw [if_neg h]
    exact ⟨fun hc => ⟨fun hp => absurd hp h, fun _ => hc⟩, fun hc => hc.2 h⟩

theorem ensures_mk_pure {r : Except Setback α} :
    Ensures pace (ExceptT.mk (pure r)) w Q E ↔
      match r with
      | .ok a => Q a w
      | .error e => E e w :=
  Script.ensures_done

theorem ensures_bind {c : Call α} {f : α → Call β} {Q : β → World → Prop} :
    Ensures pace (c >>= f) w Q E ↔ Ensures pace c w (fun a w' => Ensures pace (f a) w' Q E) E := by
  refine Script.ensures_bind.trans ?_
  refine forall_congr' fun r => forall_congr' fun w' => imp_congr_right fun _ => ?_
  cases r with
  | ok a => exact Iff.rfl
  | error e => exact Script.ensures_done

theorem ensures_perform {op : StoreOp} {Q : op.Answer → World → Prop} :
    Ensures (α := no_index op.Answer) pace (perform op) w Q E ↔ ∀ t, pace.moves w.clock t →
      Q (World.perform ⟨w.store, t⟩ op).1 (World.perform ⟨w.store, t⟩ op).2 :=
  Script.ensures_ask.trans
    (forall_congr' fun _ => imp_congr_right fun _ => Script.ensures_done)

theorem Ensures.mono {c : Call α} {Q' : α → World → Prop} {E' : Setback → World → Prop}
    (h : Ensures pace c w Q E) (hq : ∀ a w', Q a w' → Q' a w') (he : ∀ e w', E e w' → E' e w') :
    Ensures pace c w Q' E' := by
  intro r w' hr
  cases r with
  | ok a => exact hq a w' (h _ w' hr)
  | error e => exact he e w' (h _ w' hr)

/-- A call either fails and writes nothing, or has the given effect. -/
def Does (pace : Pace) (c : Call α) (w : World) (effect : α → World → Prop) : Prop :=
  Ensures pace c w effect fun _ w' => w.Idle pace w'

/-- A call that asks for no other operations, whatever it is answered. -/
def Asks (p : StoreOp → Prop) (c : Call α) : Prop := Script.Asks p (ExceptT.run c)

section
variable {p : StoreOp → Prop}

theorem asks_pure (a : α) : Asks p (pure a) := trivial

theorem asks_throw (e : Setback) : Asks p (throw e : Call α) := trivial

theorem asks_perform {op : StoreOp} (h : p op) : Asks (α := no_index op.Answer) p (perform op) :=
  ⟨h, fun _ => trivial⟩

theorem asks_bind {c : Call α} {f : α → Call β} (hc : Asks p c) (hf : ∀ a, Asks p (f a)) :
    Asks p (c >>= f) := by
  refine Script.asks_bind hc fun r => ?_
  cases r with
  | ok a => exact hf a
  | error e => trivial

theorem asks_ite {q : Prop} [Decidable q] {c c' : Call α} (hc : Asks p c) (hc' : Asks p c') :
    Asks p (if q then c else c') := by
  split
  · exact hc
  · exact hc'

end

/-- A call that writes nothing, whatever it answers. -/
def Reads (c : Call α) : Prop := ∀ pace w, Does pace c w fun _ w' => w.Idle pace w'

theorem Asks.reads {c : Call α} (h : c.Asks (·.isRead = true)) : Reads c := by
  intro pace w r w' hr
  have hidle : w.Idle pace w' := Script.Asks.idle h hr
  cases r <;> exact hidle

end Call

end Steward

/-! ## Calls that run alone -/

namespace Steward.Call

variable {α β : Type} {w w' : World}

/-- What a call answers when it runs alone, and the world it leaves. -/
def alone (c : Call α) (w : World) : Except Setback α × World := Script.run (ExceptT.run c) w

theorem runs_of_alone {c : Call α} {r : Except Setback α} (pace : Pace) (h : alone c w = (r, w')) :
    Script.Runs pace (ExceptT.run c) w r w' := by
  have hrun : Script.Runs pace (ExceptT.run c) w (alone c w).1 (alone c w).2 :=
    Script.runs_run _ w
  rwa [h] at hrun

theorem alone_pure (a : α) (w : World) : alone (pure a) w = (.ok a, w) := rfl

theorem alone_perform (op : StoreOp) (w : World) :
    alone (α := no_index op.Answer) (perform op) w = (.ok (w.perform op).1, (w.perform op).2) := rfl

theorem alone_bind (c : Call α) (f : α → Call β) (w : World) :
    alone (c >>= f) w =
      match alone c w with
      | (.ok a, w') => alone (f a) w'
      | (.error e, w') => (.error e, w') := by
  refine (Script.run_bind (ExceptT.run c) _ w).trans ?_
  unfold alone
  generalize Script.run (ExceptT.run c) w = r
  obtain ⟨r, w'⟩ := r
  cases r <;> rfl

theorem alone_bind_ok {c : Call α} {a : α} (h : alone c w = (.ok a, w')) (f : α → Call β) :
    alone (c >>= f) w = alone (f a) w' := by
  rw [alone_bind, h]

end Steward.Call
