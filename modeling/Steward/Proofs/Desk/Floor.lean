import Steward.Proofs.Desk.Run
import Steward.Proofs.Store.Grounds

/-!
# Calls under way at once

A `Visit` is a call under way, with all it has asked for so far. A `Floor` is the world and all
visits that were ever begun there. At each `Turn` a call arrives, or one visit has its next
operation carried out, or the clock is set; so calls interleave between any two of their operations.
At most `most` visits are running at any time.

* `turn_move`: what one turn changes, visits being replaced in place.
* `play_invariant`: what each move keeps holds after all turns.
* `play_grounded`: what is allowed to a call that runs in any worlds is all that its visit does.
-/

namespace Steward.Desk

open Time

/-- A call under way: what it has asked for, newest first, and what is left of it. -/
structure Visit where
  command : Command
  past : List Asked
  rest : Script (Except Setback command.Answer)

namespace Visit

/-- A call that has asked for nothing yet. -/
def start (d : Desk) (c : Command) : Visit := ⟨c, [], ExceptT.run (c.call d)⟩

/-- What the call came to, if it has ended. -/
def outcome? (v : Visit) : Option (Except Setback v.command.Answer) :=
  match v.rest with
  | .done r => some r
  | .ask _ _ => none

/-- Whether the call has not ended. -/
def isRunning (v : Visit) : Bool := v.outcome?.isNone

/-- The visit after its next operation, and the world after it. A creation whose identifier
overflows panics, and its visit goes no further. -/
def proceed (v : Visit) (w : World) : Visit × World :=
  match v.rest with
  | .done _ => (v, w)
  | .ask op next =>
    if w.store.CountsUp (w.perform op).2.store then
      ({ v with past := ⟨w, op⟩ :: v.past, rest := next (w.perform op).1 }, (w.perform op).2)
    else (v, w)

/-- Whatever a visit still asks for is allowed after what it has asked for, and so is its end. -/
def Grounded (rule : Command → List Asked → StoreOp → Prop)
    (End : (c : Command) → Except Setback c.Answer → List Asked → Prop) (v : Visit) : Prop :=
  v.rest.Grounded (rule v.command) (End v.command) v.past

/-- A visit whose operation meets the world `w`, before and after. -/
inductive Proceeds (w : World) (op : StoreOp) : Visit → Visit → Prop
  | ask {cmd : Command} {past : List Asked}
      {next : op.Answer → Script (Except Setback cmd.Answer)}
      (up : w.store.CountsUp (w.perform op).2.store) :
      Proceeds w op ⟨cmd, past, .ask op next⟩ ⟨cmd, ⟨w, op⟩ :: past, next (w.perform op).1⟩

section
variable {rule : Command → List Asked → StoreOp → Prop}
  {End : (c : Command) → Except Setback c.Answer → List Asked → Prop} {w : World} {op : StoreOp}
  {v v' : Visit}

theorem Proceeds.countsUp (h : Proceeds w op v v') :
    w.store.CountsUp (w.perform op).2.store := by
  cases h with
  | ask up => exact up

theorem Proceeds.isRunning (h : Proceeds w op v v') : v.isRunning = true := by
  cases h
  rfl

theorem Proceeds.command (h : Proceeds w op v v') : v'.command = v.command := by
  cases h
  rfl

theorem Proceeds.past (h : Proceeds w op v v') : v'.past = ⟨w, op⟩ :: v.past := by
  cases h
  rfl

theorem Grounded.allowed (h : v.Grounded rule End) (hp : Proceeds w op v v') :
    rule v.command v.past op := by
  cases hp
  exact h.1

theorem Grounded.after (h : v.Grounded rule End) (hp : Proceeds w op v v') :
    v'.Grounded rule End := by
  cases hp
  exact h.2 w

end

theorem Grounded.of_outcome {rule : Command → List Asked → StoreOp → Prop}
    {End : (c : Command) → Except Setback c.Answer → List Asked → Prop} {v : Visit}
    {r : Except Setback v.command.Answer} (h : v.Grounded rule End) (hr : v.outcome? = some r) :
    End v.command r v.past := by
  obtain ⟨cmd, past, rest⟩ := v
  cases rest with
  | done r' =>
    obtain rfl := Option.some.inj hr
    exact h
  | ask op next => cases hr

end Visit

/-- The world, and all visits in the order of their arrival. -/
structure Floor where
  world : World
  visits : List Visit

/-- What happens next. -/
inductive Turn where
  | arrive (c : Command)
  | proceed (visit : Nat)
  | clock (now : Instant)

namespace Floor

/-- The floor where nobody has come yet. -/
def fresh (w : World) : Floor := ⟨w, []⟩

/-- How many visits are running. -/
def running (x : Floor) : Nat := x.visits.countP (·.isRunning)

variable (d : Desk) (most : Nat)

/-- The floor after a turn. Nobody comes in while `most` visits are running. -/
def turn (x : Floor) : Turn → Floor
  | .arrive c => if x.running < most then { x with visits := x.visits ++ [.start d c] } else x
  | .proceed i =>
    match x.visits[i]? with
    | some v => ⟨(v.proceed x.world).2, x.visits.set i (v.proceed x.world).1⟩
    | none => x
  | .clock t => { x with world := { x.world with clock := t } }

/-- The floor after several turns. -/
def play (x : Floor) (turns : List Turn) : Floor := turns.foldl (turn d most) x

/-! ## Moves -/

/-- What a turn may change. -/
inductive Move : Floor → Floor → Prop
  | idle {x y : Floor} (store : y.world.store = x.world.store) (visits : y.visits = x.visits) :
      Move x y
  | arrive {x : Floor} (c : Command) (room : x.running < most) :
      Move x { x with visits := x.visits ++ [.start d c] }
  | proceed {w : World} {as bs : List Visit} {v v' : Visit} {op : StoreOp}
      (h : v.Proceeds w op v') :
      Move ⟨w, as ++ v :: bs⟩ ⟨(w.perform op).2, as ++ v' :: bs⟩

variable {d most} {x y : Floor}

/-- An entry of a list, and the list around it. -/
theorem exists_around {α : Type} {l : List α} {i : Nat} {a : α} (h : l[i]? = some a) :
    ∃ as bs, l = as ++ a :: bs ∧ ∀ b, l.set i b = as ++ b :: bs := by
  obtain ⟨hi, rfl⟩ := List.getElem?_eq_some_iff.1 h
  refine ⟨l.take i, l.drop (i + 1), ?_, fun b => ?_⟩
  · rw [List.getElem_cons_drop, List.take_append_drop]
  · rw [List.set_eq_take_append_cons_drop, if_pos hi]

theorem turn_move (d : Desk) (most : Nat) (x : Floor) (t : Turn) :
    Move d most x (turn d most x t) := by
  obtain ⟨w, visits⟩ := x
  cases t with
  | arrive c =>
    simp only [turn]
    split
    · next room => exact .arrive c room
    · exact .idle rfl rfl
  | clock t => exact .idle rfl rfl
  | proceed i =>
    simp only [turn]
    split
    · next v hv =>
      obtain ⟨as, bs, rfl, hset⟩ := exists_around hv
      rw [hset]
      obtain ⟨cmd, past, rest⟩ := v
      cases rest with
      | done r => exact .idle rfl rfl
      | ask op next =>
        simp only [Visit.proceed]
        split
        · next up => exact .proceed (.ask up)
        · exact .idle rfl rfl
    · exact .idle rfl rfl

/-- What each move keeps holds after all turns. -/
theorem play_invariant {P : Floor → Prop} (keep : ∀ {x y}, P x → Move d most x y → P y) (h : P x)
    (turns : List Turn) : P (play d most x turns) := by
  induction turns generalizing x with
  | nil => exact h
  | cons t turns ih => exact ih (keep h (turn_move d most x t))

/-! ## What visits do -/

section
variable {rule : Command → List Asked → StoreOp → Prop}
  {End : (c : Command) → Except Setback c.Answer → List Asked → Prop}

/-- If calls ask only for what is allowed in any worlds, so does every visit. -/
theorem play_grounded (hstart : ∀ c, (Visit.start d c).Grounded rule End)
    (h : ∀ v ∈ x.visits, v.Grounded rule End) (turns : List Turn) :
    ∀ v ∈ (play d most x turns).visits, v.Grounded rule End := by
  refine play_invariant (P := fun x => ∀ v ∈ x.visits, v.Grounded rule End) ?_ h turns
  intro x y hx hm
  cases hm with
  | idle _ visits =>
    rw [visits]
    exact hx
  | arrive c _ => exact List.forall_mem_append.2 ⟨hx, List.forall_mem_singleton.2 (hstart c)⟩
  | proceed hp =>
    obtain ⟨has, hv⟩ := List.forall_mem_append.1 hx
    obtain ⟨hv, hbs⟩ := List.forall_mem_cons.1 hv
    exact List.forall_mem_append.2 ⟨has, List.forall_mem_cons.2 ⟨hv.after hp, hbs⟩⟩

end

/-! ## A small floor -/

/-- Several turns of one visit. -/
def steps (visit n : Nat) : List Turn := List.replicate n (.proceed visit)

/-- A world with a competition of one place and two players. -/
def opening : World :=
  [.insert onePlace, .enrol ⟨1⟩ "ann" none, .enrol ⟨1⟩ "bob" none].foldl (tick (.ofLimits {}))
    (World.fresh (.ofSecond 0))

end Floor

end Steward.Desk
