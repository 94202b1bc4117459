import Steward.Proofs.Store.Runs

/-!
# Clocks

What a system clock may show: an instant of a year that has a written form, outside of any leap
second, since such a clock counts 86400 seconds a day. Between such instants the nanoseconds that
have passed are a plain difference, and they fit into signed words of milliseconds.

* `Pace.system`: a clock that never goes back and shows nothing else.
* `Instant.since_le_since_of_plain`: outside of leap seconds, as time passes, so do the nanoseconds
  from an earlier instant.
* `Instant.since_addSeconds`: what is added is what has passed.
* `Instant.Shown.millisSince_lt_bound`: no two instants are so far apart that milliseconds overflow.
* `Instant.Dated.abs_millisSince_le`: the same in either direction, leap seconds and all.
-/

namespace Steward

open Time

namespace Time.Instant

/-- The start of the first year that has a written form. -/
def dawn : Instant := .ofSecond ((Date.mk (-262143) 1 1).toDays * 86400)

/-- The end of the last year that has a written form. -/
def dusk : Instant := .ofSecond ((Date.mk 262143 1 1).toDays * 86400)

/-- An instant of a year that has a written form. -/
structure Dated (t : Instant) : Prop where
  dawn_le : dawn ≤ t
  lt_dusk : t < dusk

/-- An instant that a system clock may show. -/
structure Shown (t : Instant) : Prop where
  plain : t.isLeap = false
  dawn_le : dawn ≤ t
  lt_dusk : t < dusk

/-- The instant a number of seconds later. -/
def addSeconds (a : Instant) (s : Int) : Instant := a.addNanos (s * 1000000000)

variable {a b c : Instant}

/-! ## Outside of leap seconds -/

theorem nano_lt_of_plain (h : a.isLeap = false) : a.nano < 1000000000 := by
  simp only [isLeap, decide_eq_false_iff_not] at h
  omega

theorem since_eq_of_plain (ha : a.isLeap = false) (hb : b.isLeap = false) :
    a.since b = (a.second - b.second) * 1000000000 + (a.nano - b.nano) := by
  simp [since, ha, hb]

@[simp] theorem since_self (a : Instant) : a.since a = 0 := by simp [since]

theorem since_le_since_of_plain (ha : a.isLeap = false) (hb : b.isLeap = false)
    (hc : c.isLeap = false) (h : b ≤ c) : b.since a ≤ c.since a := by
  have hnano := nano_lt_of_plain hb
  rw [since_eq_of_plain hb ha, since_eq_of_plain hc ha]
  rw [le_def] at h
  omega

theorem since_nonneg_of_plain (ha : a.isLeap = false) (hb : b.isLeap = false) (h : a ≤ b) :
    0 ≤ b.since a := by
  rw [← since_self a]
  exact since_le_since_of_plain ha ha hb h

theorem addSeconds_of_plain (ha : a.isLeap = false) (s : Int) :
    (a.addSeconds s).second = a.second + s ∧ (a.addSeconds s).nano = a.nano := by
  have hnano := nano_lt_of_plain ha
  have hplain : ¬a.isLeap = true := by simp [ha]
  rw [addSeconds, addNanos, dif_neg hplain]
  simp only [ofNanos]
  omega

theorem isLeap_addSeconds (ha : a.isLeap = false) (s : Int) : (a.addSeconds s).isLeap = false := by
  rw [isLeap, (addSeconds_of_plain ha s).2]
  exact ha

theorem since_addSeconds (ha : a.isLeap = false) (hb : b.isLeap = false) (s : Int) :
    (b.addSeconds s).since a = b.since a + s * 1000000000 := by
  obtain ⟨hsecond, hnano⟩ := addSeconds_of_plain hb s
  rw [since_eq_of_plain (isLeap_addSeconds hb s) ha, since_eq_of_plain hb ha, hsecond, hnano]
  omega

/-! ## Instants that a clock may show -/

theorem Dated.second_bounds (h : a.Dated) :
    -8334601228800 ≤ a.second ∧ a.second ≤ 8210266876799 := by
  have hdawn : dawn = ⟨-8334601228800, 0, by decide⟩ := by decide
  have hdusk : dusk = ⟨8210266876800, 0, by decide⟩ := by decide
  have hle := h.dawn_le
  have hlt := h.lt_dusk
  rw [hdawn, le_def] at hle
  rw [hdusk, lt_def] at hlt
  simp only at hle hlt
  omega

theorem Shown.dated (h : a.Shown) : a.Dated := ⟨h.dawn_le, h.lt_dusk⟩

theorem Shown.since_le_since (ha : a.Shown) (hb : b.Shown) (hc : c.Shown) (h : b ≤ c) :
    b.since a ≤ c.since a :=
  since_le_since_of_plain ha.plain hb.plain hc.plain h

theorem Shown.since_nonneg (ha : a.Shown) (hb : b.Shown) (h : a ≤ b) : 0 ≤ b.since a :=
  since_nonneg_of_plain ha.plain hb.plain h

/-! ## How far instants are apart -/

/-- A leap second moves what lies between two instants by a second at most. -/
theorem exists_since_eq (a b : Instant) : ∃ leap : Int, -1 ≤ leap ∧ leap ≤ 1 ∧
    b.since a = (b.second - a.second + leap) * 1000000000 + (b.nano - a.nano) := by
  refine ⟨_, ?_, ?_, rfl⟩
  all_goals
    split
    · split <;> decide
    · split
      · split <;> decide
      · decide

theorem Dated.abs_millisSince_le (ha : a.Dated) (hb : b.Dated) :
    -16544868105602000 ≤ b.millisSince a ∧ b.millisSince a ≤ 16544868105602000 := by
  obtain ⟨hfirst, hlast⟩ := ha.second_bounds
  obtain ⟨hfirst', hlast'⟩ := hb.second_bounds
  obtain ⟨leap, hleap, hleap', hsince⟩ := exists_since_eq a b
  have hnano := a.valid
  have hnano' := b.valid
  have hbounds : -16544868105602000000000 ≤ b.since a ∧ b.since a ≤ 16544868105602000000000 := by
    omega
  rw [millisSince, Int.tdiv_eq_ediv]
  split
  · omega
  · rw [Int.sign_eq_one_of_pos (by decide)]
    omega

theorem Shown.millisSince_lt_bound (ha : a.Shown) (hb : b.Shown) :
    b.millisSince a < Word.bound64 - 1 := by
  have hfar := (ha.dated.abs_millisSince_le hb.dated).2
  have hbound : Word.bound64 = 9223372036854775808 := rfl
  omega

end Time.Instant

/-- The clock never goes back, and once it shows what a system clock may show it does so for
good. -/
def Pace.system : Pace where
  moves t u := t ≤ u ∧ (t.Shown → u.Shown)
  refl t := ⟨Instant.le_refl t, id⟩
  trans h k := ⟨Instant.le_trans h.1 k.1, fun ht => k.2 (h.2 ht)⟩

end Steward
