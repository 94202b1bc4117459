import Steward.Failure
import Steward.Store.Basic

/-!
# Scripts of store operations

A service call is a script: it asks the store for one operation after the other and goes on with the
answers. Each operation is one step, so that other calls may run between two of them; what was read
before stays as it was read.

* `Script.run_bind`: a script in two parts runs its parts one after the other.
-/

namespace Steward

open Time

/-- One operation on the store, or a look at the clock. -/
inductive StoreOp where
  | now
  | competition? (id : Int)
  | competitionsOf (server : Snowflake)
  | addCompetition (draft : Competition.Draft)
  | writeCompetition (c : Competition)
  | participant? (competition player : Int)
  | participantsOf (competition : Int)
  | countActive (competition : Int)
  | addParticipant (p : Participant)
  | writeParticipant (p : Participant)
  | player? (id : Int)
  | grant? (server user : Snowflake) (permission : Permission)
  | grantsOf (server : Snowflake)
  | addGrant (g : Grant)
  | removeGrant (server user : Snowflake) (permission : Permission)
  | lastCreation? (m : Member)
  | recordCreation (m : Member) (at' : Instant) (retention : Int)

namespace StoreOp

/-- What an operation answers. -/
abbrev Answer : StoreOp → Type
  | now => Instant
  | competition? _ => Option Competition
  | competitionsOf _ => List Competition
  | addCompetition _ => Competition
  | writeCompetition _ => Except Refusal Unit
  | participant? _ _ => Option Participant
  | participantsOf _ => List Participant
  | countActive _ => Nat
  | addParticipant _ => Except Refusal Unit
  | writeParticipant _ => Except Refusal Unit
  | player? _ => Option Player
  | grant? _ _ _ => Option Grant
  | grantsOf _ => List Grant
  | addGrant _ => Grant
  | removeGrant _ _ _ => Bool
  | lastCreation? _ => Option Instant
  | recordCreation _ _ _ => Unit

end StoreOp

/-- The store and the clock. -/
structure World where
  store : Store
  clock : Instant
deriving DecidableEq

namespace World

/-- A write that may be refused: its answer, and the world after it. -/
def attempt (w : World) : Except Refusal Store → Except Refusal Unit × World
  | .ok s => (.ok (), { w with store := s })
  | .error e => (.error e, w)

/-- The answer of an operation, and the world after it. -/
def perform (w : World) : (op : StoreOp) → op.Answer × World
  | .now => (w.clock, w)
  | .competition? id => (w.store.competition? id, w)
  | .competitionsOf server => (w.store.competitionsOf server, w)
  | .addCompetition d =>
    let (c, s) := w.store.addCompetition d w.clock
    (c, { w with store := s })
  | .writeCompetition c => w.attempt (w.store.writeCompetition c)
  | .participant? c p => (w.store.participant? c p, w)
  | .participantsOf c => (w.store.participantsOf c, w)
  | .countActive c => (w.store.countActive c, w)
  | .addParticipant p => w.attempt (w.store.addParticipant p)
  | .writeParticipant p => w.attempt (w.store.writeParticipant p)
  | .player? id => (w.store.player? id, w)
  | .grant? server user permission => (w.store.grant? server user permission, w)
  | .grantsOf server => (w.store.grantsOf server, w)
  | .addGrant g =>
    let (stored, s) := w.store.addGrant g
    (stored, { w with store := s })
  | .removeGrant server user permission =>
    let (existed, s) := w.store.removeGrant server user permission
    (existed, { w with store := s })
  | .lastCreation? m => (w.store.cooldowns.last? m, w)
  | .recordCreation m at' retention =>
    ((), { w with store := { w.store with cooldowns := w.store.cooldowns.record m at' retention } })

end World

/-- A sequence of store operations, each of which may depend on the answers before it. -/
inductive Script (α : Type) where
  | done (result : α)
  | ask (op : StoreOp) (next : op.Answer → Script α)

namespace Script

variable {α β : Type}

/-- A script followed by another that depends on its result. -/
def bind : Script α → (α → Script β) → Script β
  | done a, f => f a
  | ask op next, f => ask op fun r => (next r).bind f

instance : Monad Script where
  pure := done
  bind := bind

/-- One operation. -/
def perform (op : StoreOp) : Script op.Answer := ask op done

/-- The result of a script that runs without another call between its operations, and the world
after it. -/
def run : Script α → World → α × World
  | done a, w => (a, w)
  | ask op next, w => (next (w.perform op).1).run (w.perform op).2

theorem run_bind (s : Script α) (f : α → Script β) (w : World) :
    (s.bind f).run w = (f (s.run w).1).run (s.run w).2 := by
  induction s generalizing w with
  | done a => rfl
  | ask op next ih => exact ih _ _

end Script

/-- A service call: a script that ends in a result or a setback. -/
abbrev Call (α : Type) := ExceptT Setback Script α

end Steward
