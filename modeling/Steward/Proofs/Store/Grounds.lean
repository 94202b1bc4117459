import Steward.Proofs.Store.Runs

/-!
# What scripts ask for, given what they have asked before

While a script runs, others may run between its operations, so each of its operations may meet any
world. `Script.Grounded rule Q past s` says that whatever the worlds are, each operation that `s`
still asks for is one that `rule` allows after the operations before it, and that `Q` holds of the
answer and of all operations in the end. `Call.Grounded` says the same of a service call, with one
condition on its result and one on its setback.

* `Call.grounded_bind`: a call in two parts, rule by rule as for `Ensures`.
* `Script.Asks.grounded`: a script of reads is grounded where reads are allowed.
-/

namespace Steward

/-- An operation that was carried out, and the world that it met. -/
structure Asked where
  world : World
  op : StoreOp

namespace Asked

/-- The operation changed nothing. -/
def Idle (a : Asked) : Prop := (a.world.perform a.op).2 = a.world

/-- A write that is refused changes nothing. -/
theorem idle_of_refused {w : World} {op : StoreOp} {write : Except Refusal Store} {r : Refusal}
    (hw : write = .error r) (h : (w.perform op).2 = (w.attempt write).2) : (mk w op).Idle := by
  rw [Idle, h, hw]
  rfl

end Asked

/-- Nothing but reads was asked for. -/
def AllReads (past : List Asked) : Prop := ∀ a ∈ past, a.op.isRead = true

variable {α β : Type} {rule : List Asked → StoreOp → Prop} {past : List Asked}

theorem allReads_nil : AllReads [] := by
  intro a ha
  cases ha

theorem AllReads.cons (h : AllReads past) (w : World) (op : StoreOp) (hop : op.isRead = true) :
    AllReads (⟨w, op⟩ :: past) :=
  List.forall_mem_cons.2 ⟨hop, h⟩

/-- Reads change nothing. -/
theorem AllReads.idle (h : AllReads past) : ∀ a ∈ past, a.Idle :=
  fun a ha => World.perform_of_isRead (h a ha) a.world

/-! ## Scripts -/

namespace Script

/-- Each operation is allowed after those before it, newest first, and `Q` holds in the end. -/
def Grounded (rule : List Asked → StoreOp → Prop) (Q : α → List Asked → Prop) :
    Script α → List Asked → Prop
  | done a, past => Q a past
  | ask op next, past =>
    rule past op ∧ ∀ w : World, (next (w.perform op).1).Grounded rule Q (⟨w, op⟩ :: past)

theorem grounded_bind {s : Script α} {f : α → Script β} {Q : β → List Asked → Prop} :
    (s.bind f).Grounded rule Q past ↔
      s.Grounded rule (fun a past => (f a).Grounded rule Q past) past := by
  induction s generalizing past with
  | done a => exact Iff.rfl
  | ask op next ih => exact and_congr_right fun _ => forall_congr' fun w => ih _

theorem Grounded.mono {s : Script α} {Q Q' : α → List Asked → Prop} (h : s.Grounded rule Q past)
    (hq : ∀ a past, Q a past → Q' a past) : s.Grounded rule Q' past := by
  induction s generalizing past with
  | done a => exact hq a past h
  | ask op next ih => exact ⟨h.1, fun w => ih _ (h.2 w)⟩

/-- A script of reads is grounded where reads are allowed, and all it has asked for are reads. -/
theorem Asks.grounded {s : Script α} (h : s.Asks (·.isRead = true)) (hp : AllReads past)
    (hrule : ∀ past op, AllReads past → op.isRead = true → rule past op) :
    s.Grounded rule (fun _ past => AllReads past) past := by
  induction s generalizing past with
  | done a => exact hp
  | ask op next ih => exact ⟨hrule past op hp h.1, fun w => ih _ (h.2 _) (hp.cons w op h.1)⟩

end Script

/-! ## Calls -/

namespace Call

variable {Q : α → List Asked → Prop} {E : Setback → List Asked → Prop}

/-- Each operation of a call is allowed after those before it, and in the end `Q` holds of its
result, or `E` of its setback. -/
def Grounded (rule : List Asked → StoreOp → Prop) (c : Call α) (past : List Asked)
    (Q : α → List Asked → Prop) (E : Setback → List Asked → Prop) : Prop :=
  Script.Grounded rule (fun r past =>
    match r with
    | .ok a => Q a past
    | .error e => E e past) (ExceptT.run c) past

theorem grounded_pure {a : α} : Grounded rule (pure a) past Q E ↔ Q a past := Iff.rfl

theorem grounded_check {c : Except Refusal Unit} {Q : Unit → List Asked → Prop} :
    Grounded rule (check c) past Q E ↔
      match c with
      | .ok _ => Q () past
      | .error r => E (.refusal r) past := by
  cases c <;> exact Iff.rfl

theorem grounded_ite {p : Prop} [Decidable p] {c c' : Call α} :
    Grounded rule (if p then c else c') past Q E ↔
      (p → Grounded rule c past Q E) ∧ (¬p → Grounded rule c' past Q E) := by
  by_cases h : p
  · rw [if_pos h]
    exact ⟨fun hc => ⟨fun _ => hc, fun hn => absurd h hn⟩, fun hc => hc.1 h⟩
  · rw [if_neg h]
    exact ⟨fun hc => ⟨fun hp => absurd hp h, fun _ => hc⟩, fun hc => hc.2 h⟩

theorem grounded_perform {op : StoreOp} {Q : op.Answer → List Asked → Prop} :
    Grounded (α := no_index op.Answer) rule (perform op) past Q E ↔
      rule past op ∧ ∀ w : World, Q (w.perform op).1 (⟨w, op⟩ :: past) := Iff.rfl

theorem grounded_bind {c : Call α} {f : α → Call β} {Q : β → List Asked → Prop} :
    Grounded rule (c >>= f) past Q E ↔
      Grounded rule c past (fun a past => Grounded rule (f a) past Q E) E := by
  refine Script.grounded_bind.trans ⟨fun h => ?_, fun h => ?_⟩
  · refine Script.Grounded.mono h fun r past hr => ?_
    cases r <;> exact hr
  · refine Script.Grounded.mono h fun r past hr => ?_
    cases r <;> exact hr

end Call

end Steward
