import Steward.Competition.Basic

/-!
# Open competitions

A competition is open until it ends or is cancelled, and never again after that.

* `isOpen_stageAt_iff`: when a competition is open.
* `isOpen_of_le`: one that is open later on is open before, for any dates.
* `isOpen_of_running`: one that is neither cancelled nor over is open.
* `isOpen_iff_running`: with valid dates no other one is, unless its season ends before it starts.
-/

namespace Steward

open Time

/-- Valid dates are placed in time: given ones as they are, those of a season by the calendar. -/
theorem Dates.resolve?_isSome_of_validate {calendar : Calendar} {dates : Dates}
    (h : dates.validate calendar = .ok ()) : (dates.resolve? calendar).isSome := by
  cases dates with
  | fixed start finish => rfl
  | season id =>
    cases hs : calendar.get? id with
    | none => simp [validate, hs] at h
    | some s => simp [resolve?, hs]

theorem Stage.isOpen_iff {stage : Stage} :
    stage.isOpen = true ↔ stage = .draft ∨ stage = .active := by
  cases stage <;> decide

namespace Competition

variable {c : Competition} {calendar : Calendar} {u v : Instant}

theorem isOpen_stageAt_iff : (c.stageAt calendar u).isOpen = true ↔ c.isCancelled = false ∧
    ∀ start finish, c.dates.resolve? calendar = some (start, finish) → u < start ∨ u ≤ finish := by
  unfold stageAt
  split
  · next hc => simp [hc, Stage.isOpen]
  · next hc =>
    rw [Bool.not_eq_true] at hc
    split
    · next start finish hr =>
      rw [hr]
      simp only [Option.some.injEq, Prod.mk.injEq, and_imp, hc, true_and]
      constructor
      · rintro ho _ _ rfl rfl
        split at ho
        · next hs => exact .inl hs
        · split at ho
          · cases ho
          · next hf => exact .inr (Instant.not_lt.1 hf)
      · intro ho
        obtain hs | hf := ho start finish rfl rfl
        · rw [if_pos hs]
          rfl
        · split
          · rfl
          · rw [if_neg (Instant.not_lt.2 hf)]
            rfl
    · next hr =>
      rw [hr]
      simp [hc, Stage.isOpen]

/-- Time opens no competition. A season may end before it starts; it is open until the later of
the two. -/
theorem isOpen_of_le (hle : u ≤ v) (h : (c.stageAt calendar v).isOpen = true) :
    (c.stageAt calendar u).isOpen = true := by
  obtain ⟨hc, hv⟩ := isOpen_stageAt_iff.1 h
  refine isOpen_stageAt_iff.2 ⟨hc, fun start finish hr => ?_⟩
  obtain hs | hf := hv start finish hr
  · have hnot : ¬start ≤ u := fun hsu =>
      Instant.not_le.2 hs (Instant.le_trans hsu hle)
    exact .inl (Instant.not_le.1 hnot)
  · exact .inr (Instant.le_trans hle hf)

theorem isOpen_of_running (hc : c.isCancelled = false) (he : c.hasEnded calendar u = false) :
    (c.stageAt calendar u).isOpen = true := by
  refine isOpen_stageAt_iff.2 ⟨hc, fun start finish hr => ?_⟩
  unfold hasEnded at he
  rw [hr] at he
  exact .inr (Instant.not_lt.1 (of_decide_eq_false he))

theorem not_isOpen_of_cancelled (hc : c.isCancelled = true) :
    (c.stageAt calendar u).isOpen = false := by
  unfold stageAt
  rw [if_pos hc]
  rfl

/-! ## Valid dates -/

/-- The dates are those of a season that ends before it starts, and the instant lies in between. -/
def InBackwardSeason (c : Competition) (calendar : Calendar) (u : Instant) : Prop :=
  ∃ s, c.dates = .season s.id ∧ calendar.get? s.id = some s ∧ s.finish < u ∧ u < s.start

/-- Valid dates of which the end has passed and the start has not are those of such a season. -/
theorem inBackwardSeason_iff {start finish : Instant}
    (h : c.dates.validate calendar = .ok ())
    (hr : c.dates.resolve? calendar = some (start, finish)) :
    c.InBackwardSeason calendar u ↔ finish < u ∧ u < start := by
  constructor
  · rintro ⟨s, hs, hget, hafter, hbefore⟩
    rw [hs, Dates.resolve?, hget] at hr
    obtain ⟨rfl, rfl⟩ := Prod.mk.inj (Option.some.inj hr)
    exact ⟨hafter, hbefore⟩
  · rintro ⟨hafter, hbefore⟩
    cases hd : c.dates with
    | fixed first last =>
      rw [hd] at h hr
      obtain ⟨rfl, rfl⟩ := Prod.mk.inj (Option.some.inj hr)
      have hle : last ≤ first := by
        rw [Instant.le_def]
        rw [Instant.lt_def] at hafter hbefore
        omega
      rw [Dates.validate, if_pos hle] at h
      cases h
    | season id =>
      rw [hd] at hr
      obtain ⟨s, hget, hs⟩ := Option.map_eq_some_iff.1 hr
      obtain ⟨rfl, rfl⟩ := Prod.mk.inj hs
      have hfind : List.find? (fun r => decide (r.id = id)) calendar = some s := hget
      obtain rfl : s.id = id := by simpa using List.find?_some hfind
      exact ⟨s, hd, hget, hafter, hbefore⟩

/-- Where its dates are valid a competition is open as long as it is neither cancelled nor over.
Only a season that ends before it starts can be over and count as open. -/
theorem isOpen_iff_running (h : c.dates.validate calendar = .ok ()) :
    (c.stageAt calendar u).isOpen = true ↔ c.isCancelled = false ∧
      (c.hasEnded calendar u = false ∨ c.InBackwardSeason calendar u) := by
  obtain ⟨⟨start, finish⟩, hr⟩ := Option.isSome_iff_exists.1 (Dates.resolve?_isSome_of_validate h)
  have hended : c.hasEnded calendar u = false ↔ u ≤ finish := by
    rw [hasEnded, hr, decide_eq_false_iff_not, Instant.not_lt]
  rw [isOpen_stageAt_iff, inBackwardSeason_iff h hr, hended, hr]
  refine and_congr_right fun _ => ?_
  constructor
  · intro ho
    obtain hbefore | hle := ho start finish rfl
    · by_cases hle : u ≤ finish
      · exact .inl hle
      · exact .inr ⟨Instant.not_le.1 hle, hbefore⟩
    · exact .inl hle
  · rintro hle _ _ ⟨⟩
    exact hle.elim .inr fun hgap => .inl hgap.2

end Competition

end Steward
