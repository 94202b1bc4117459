import Steward.Proofs.Store.Tables
import Steward.Store.Script

/-!
# What one operation leaves of the tables

`Store.Written s op s'` lists what an operation may do to the rows of competitions and participants.

* `World.perform_written`: each operation does one of these.
* `Written.competition?`, `Written.participant?`: a row that is found stays or is written over.
* `Written.extends`: competitions stay, and so does the number of their places.
* `Written.sound`: tables that are keyed stay so.

What is said of competitions holds as long as their counter does not wrap.
-/

namespace Steward

open Time

namespace Store

/-- What an operation may leave of the tables. -/
inductive Written (s : Store) : StoreOp → Store → Prop
  | same {op : StoreOp} {s' : Store} (h : SameRows s s') : Written s op s'
  | create {draft : Competition.Draft} {now : Instant} :
      Written s (.addCompetition draft) (s.addCompetition draft now).2
  | rewrite {c : Competition} {s' : Store} (h : s.writeCompetition c = .ok s') :
      Written s (.writeCompetition c) s'
  | add {p : Participant} {s' : Store} (h : s.addParticipant p = .ok s') :
      Written s (.addParticipant p) s'
  | replace {p : Participant} {s' : Store} (h : s.writeParticipant p = .ok s') :
      Written s (.writeParticipant p) s'

/-- Every competition is still there, with as many places. -/
def Extends (s s' : Store) : Prop :=
  ∀ c ∈ s.competitions, ∃ c' ∈ s'.competitions,
    c'.id = c.id ∧ c'.maxParticipants = c.maxParticipants

end Store

open Store

theorem World.perform_written (w : World) (op : StoreOp) :
    Written w.store op (w.perform op).2.store := by
  cases op with
  | addCompetition draft => exact .create
  | writeCompetition c =>
    simp only [World.perform]
    cases hw : w.store.writeCompetition c with
    | ok s => exact .rewrite hw
    | error r => exact .same (.of_eq rfl)
  | addParticipant p =>
    simp only [World.perform]
    cases hw : w.store.addParticipant p with
    | ok s => exact .add hw
    | error r => exact .same (.of_eq rfl)
  | writeParticipant p =>
    simp only [World.perform]
    cases hw : w.store.writeParticipant p with
    | ok s => exact .replace hw
    | error r => exact .same (.of_eq rfl)
  | addGrant g => exact .same (.addGrant rfl)
  | removeGrant server user permission => exact .same (.removeGrant rfl)
  | _ => exact .same ⟨rfl, rfl, rfl⟩

namespace Store

variable {s s' s'' : Store} {op : StoreOp} {c : Competition} {p : Participant}
  {id competition player : Int}

/-! ## Rows that are found -/

theorem Written.competition? (h : Written s op s') (hup : CountsUp s s')
    (hgiven : id ≤ s.lastId.toInt) (hc : s.competition? id = some c) :
    s'.competition? id = some c ∨
      ∃ c', op = .writeCompetition c' ∧ s'.competition? id = some (written c' c) := by
  cases h with
  | same h =>
    left
    rw [Store.competition?, h.competitions]
    exact hc
  | create =>
    left
    have hnew : id < s.nextId := by
      rw [show s.nextId = s.lastId.toInt + 1 from toInt_add_one hup]
      exact Int.lt_add_one_of_le hgiven
    rw [Store.competition?] at hc ⊢
    rw [addCompetition, find?_putRow_of_ne]
    · exact hc
    · exact Int.ne_of_lt hnew
  | @rewrite c' _ h =>
    refine .inr ⟨c', rfl, ?_⟩
    rw [writeCompetition_eq_ok h, Store.competition?, List.find?_map]
    have hcomp : ((fun r : Competition => decide (r.id = id)) ∘ written c') =
        fun r => decide (r.id = id) := by
      funext r
      rw [Function.comp_apply, written_id]
    rw [hcomp]
    exact congrArg (Option.map (written c')) hc
  | add h =>
    left
    obtain ⟨-, rfl⟩ := addParticipant_eq_ok h
    exact hc
  | replace h =>
    left
    rw [writeParticipant_eq_ok h]
    exact hc

theorem Written.participant? (h : Written s op s')
    (hp : s.participant? competition player = some p) :
    s'.participant? competition player = some p ∨
      ∃ p', op = .writeParticipant p' ∧
        s'.participant? competition player = some (replaced p' p) := by
  cases h with
  | same h =>
    left
    rw [Store.participant?, h.participants]
    exact hp
  | create => exact .inl hp
  | rewrite h =>
    left
    rw [writeCompetition_eq_ok h]
    exact hp
  | add h =>
    left
    obtain ⟨-, rfl⟩ := addParticipant_eq_ok h
    exact List.find?_append.trans (by rw [show s.participants.find? _ = some p from hp]; rfl)
  | @replace p' _ h =>
    refine .inr ⟨p', rfl, ?_⟩
    rw [writeParticipant_eq_ok h, Store.participant?, List.find?_map]
    have hcomp : (isRow competition player ∘ replaced p') = isRow competition player := by
      funext r
      rw [Function.comp_apply, Bool.eq_iff_iff, isRow_iff, isRow_iff, replaced_key]
    rw [hcomp]
    exact congrArg (Option.map (replaced p')) hp

/-! ## All rows -/

theorem Extends.trans (h : Extends s s') (k : Extends s' s'') : Extends s s'' := by
  intro c hc
  obtain ⟨c', hc', hid, hmax⟩ := h c hc
  obtain ⟨c'', hc'', hid', hmax'⟩ := k c' hc'
  exact ⟨c'', hc'', hid'.trans hid, hmax'.trans hmax⟩

theorem Extends.of_eq (h : s'.competitions = s.competitions) : Extends s s' := by
  intro c hc
  exact ⟨c, h ▸ hc, rfl, rfl⟩

theorem Written.extends (h : Written s op s') (hs : s.Numbered) (hup : CountsUp s s') :
    Extends s s' := by
  cases h with
  | same h => exact .of_eq h.competitions
  | create =>
    rw [(hs.addCompetition_eq hup).2]
    exact fun c hc => ⟨c, List.mem_append_left _ hc, rfl, rfl⟩
  | @rewrite c' _ h =>
    rw [writeCompetition_eq_ok h]
    exact fun c hc => ⟨written c' c, List.mem_map_of_mem hc, written_id _ _,
      written_maxParticipants _ _⟩
  | add h =>
    obtain ⟨-, rfl⟩ := addParticipant_eq_ok h
    exact .of_eq rfl
  | replace h =>
    rw [writeParticipant_eq_ok h]
    exact .of_eq rfl

/-- Keyed tables stay so. Participants may be added to stored competitions only. -/
theorem Written.sound (h : Written s op s') (hs : s.Sound) (hup : CountsUp s s')
    (home : ∀ p, op = .addParticipant p → ∃ c ∈ s.competitions, c.id = p.competition) :
    s'.Sound := by
  cases h with
  | same h => exact hs.congr h
  | create => exact hs.addCompetition hup
  | rewrite h => exact hs.writeCompetition h
  | add h =>
    obtain ⟨c, hc, hid⟩ := home _ rfl
    exact hs.addParticipant h hc hid
  | replace h => exact hs.writeParticipant h

end Store

end Steward
