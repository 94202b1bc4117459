import Steward.Desk.Competitions
import Steward.Proofs.Competition.Stage
import Steward.Proofs.Text.Trim

/-!
# Checked requests

A creation request is checked in three layers: the limits on its fields, the limit of the desk, and
the rules on criteria and dates. Only then is its title trimmed, which leaves it within its limits.

* `WellFormed`: what holds of every draft that service calls store.
* `wellFormed_toDraft`: the draft of a request that passed all checks is well formed.
* `checkRequest_eq_ok_iff`: what the first two layers ask for.
* `checkDates_eq_ok`: dates that passed the check are placed in time and end later on.
-/

namespace Steward

open Time

/-- The fields of a draft are within the limits of a desk. -/
structure Competition.Draft.WellFormed (d : Desk) (x : Competition.Draft) : Prop where
  trimmed : Text.trimmed x.title = x.title
  title : 1 ≤ x.title.length ∧ x.title.length ≤ 100
  description : x.description.length ≤ 500
  places : 2 ≤ x.maxParticipants ∧ x.maxParticipants ≤ d.limits.maxParticipants
  criteria : x.criteria.validate = .ok ()
  dates : x.dates.validate d.calendar = .ok ()

theorem Request.validate_eq_ok_iff {r : Request} : r.validate = .ok () ↔
    r.description.length ≤ 500 ∧ 2 ≤ r.maxParticipants ∧
      (1 ≤ r.title.length ∧ r.title.length ≤ 100) ∧ Text.blank r.title = false := by
  have hfaults : r.validate = .ok () ↔ r.faults = [] := by
    unfold validate
    rw [← List.isEmpty_iff]
    split
    · next hempty => simp only [hempty]
    · next hempty => simp only [hempty, reduceCtorEq]
  have hdescription : descriptionFault r.description = none ↔ r.description.length ≤ 500 := by
    simp only [descriptionFault, ite_eq_left_iff, reduceCtorEq, imp_false, Decidable.not_not]
  have hplaces : placesFault r.maxParticipants = none ↔ 2 ≤ r.maxParticipants := by
    simp only [placesFault, ite_eq_left_iff, reduceCtorEq, imp_false, Decidable.not_not]
  have htitle : titleFault r.title = none ↔
      (1 ≤ r.title.length ∧ r.title.length ≤ 100) ∧ Text.blank r.title = false := by
    unfold titleFault
    split
    · next hlength => simp only [reduceCtorEq, false_iff]; omega
    · next hlength =>
      split
      · next hblank => simp only [hblank, reduceCtorEq, and_false]
      · next hblank =>
        rw [Bool.not_eq_true] at hblank
        simp only [hblank, and_true, true_iff]
        omega
  rw [hfaults]
  simp only [faults, List.append_eq_nil_iff, Option.toList_eq_nil_iff, hdescription, hplaces,
    htitle, and_assoc]

namespace Desk

variable {d : Desk} {r : Request} {dates : Dates} {now : Instant}

theorem checkRequest_eq_ok_iff : checkRequest d r = .ok () ↔
    r.validate = .ok () ∧ r.maxParticipants ≤ d.limits.maxParticipants ∧
      r.criteria.validate = .ok () := by
  unfold checkRequest
  cases hv : r.validate with
  | error faults => exact ⟨nofun, nofun⟩
  | ok u =>
    by_cases hlimit : d.limits.maxParticipants < r.maxParticipants
    · simp only [if_pos hlimit, Int.not_le.2 hlimit, false_and, and_false, iff_false]
      exact nofun
    · simp only [if_neg hlimit, Int.not_lt.1 hlimit, true_and]
      cases r.criteria.validate with
      | error f => exact ⟨nofun, nofun⟩
      | ok u => exact ⟨fun _ => rfl, fun _ => rfl⟩

theorem checkDates_eq_ok (h : checkDates d dates now = .ok ()) :
    dates.validate d.calendar = .ok () ∧
      ∃ start finish, dates.resolve? d.calendar = some (start, finish) ∧ now < finish := by
  unfold checkDates at h
  cases hv : dates.validate d.calendar with
  | error f =>
    rw [hv] at h
    cases h
  | ok u =>
    obtain ⟨⟨start, finish⟩, hr⟩ :=
      Option.isSome_iff_exists.1 (Dates.resolve?_isSome_of_validate hv)
    refine ⟨rfl, start, finish, hr, ?_⟩
    simp only [hv, hr] at h
    split at h
    · cases h
    · next hlater => exact Instant.not_le.1 hlater

theorem wellFormed_toDraft (hr : checkRequest d r = .ok ())
    (hd : checkDates d r.dates now = .ok ()) (server owner : Snowflake) :
    (r.toDraft server owner).WellFormed d := by
  obtain ⟨hvalid, hlimit, hcriteria⟩ := checkRequest_eq_ok_iff.1 hr
  obtain ⟨hdescription, htwo, ⟨-, hlength⟩, hblank⟩ := Request.validate_eq_ok_iff.1 hvalid
  exact
    { trimmed := Text.trimmed_trimmed r.title
      title := ⟨Text.length_trimmed_pos hblank,
        Nat.le_trans (Text.length_trimmed_le r.title) hlength⟩
      description := hdescription
      places := ⟨htwo, hlimit⟩
      criteria := hcriteria
      dates := (checkDates_eq_ok hd).1 }

end Desk

end Steward
