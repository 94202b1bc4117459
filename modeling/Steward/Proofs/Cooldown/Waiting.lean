import Steward.Proofs.Cooldown
import Steward.Settings.Basic

/-!
# How long to wait

Who has to wait is told a number of seconds. It is the least after which the check lets them pass,
although the time that has passed is cut to milliseconds and the time that is left is rounded up to
seconds.

* `wait_exact`: the wait that is told is exact to the second, and the check to the nanosecond,
  outside of leap seconds. `leap_second_unsettles_wait`: within them it need not be.
* `overflow_iff_not_hasRoom`: when a check overflows. All other waits are told as at least a second.
  `longest_wait_overflows`: with a very long cooldown, some check does.
-/

namespace Steward.Cooldowns

open Time

variable {cooldown : Nat} {c : Cooldowns} {m : Member} {last now u : Instant} {n r : Int}

/-! ## Waits are exact -/

theorem millisLeft_of_plain (hcooldown : cooldown ≤ 9000000000000000)
    (hlast : last.isLeap = false) (hnow : now.isLeap = false) (hle : last ≤ now) :
    millisLeft cooldown last now = cooldown * 1000 - now.since last / 1000000 ∧
      0 ≤ now.since last := by
  have hbound : Word.bound64 = 9223372036854775808 := rfl
  have hnonneg := Instant.since_nonneg_of_plain hlast hnow hle
  refine ⟨?_, hnonneg⟩
  rw [millisLeft, cooldownMillis, Instant.millisSince, Int.tdiv_eq_ediv_of_nonneg hnonneg]
  omega

/-- Though it looks at whole milliseconds, the check lets pass at the very nanosecond. -/
theorem decide_eq_allowed_iff_of_plain (hcooldown : cooldown ≤ 9000000000000000)
    (hlast : last.isLeap = false) (hnow : now.isLeap = false) (hle : last ≤ now) :
    decide cooldown (some last) now = .allowed ↔ retention cooldown ≤ now.since last := by
  obtain ⟨hleft, hnonneg⟩ := millisLeft_of_plain hcooldown hlast hnow hle
  rw [decide_eq_allowed_iff, hleft, retention]
  omega

/-- What is told is the least number of seconds after which the cooldown is over. -/
theorem retention_of_wait (hcooldown : cooldown ≤ 9000000000000000)
    (hlast : last.isLeap = false) (hnow : now.isLeap = false) (hle : last ≤ now)
    (hwait : decide cooldown (some last) now = .wait r) :
    1 ≤ r ∧ retention cooldown ≤ now.since last + r * 1000000000 ∧
      now.since last + (r - 1) * 1000000000 < retention cooldown := by
  have hbound : Word.bound64 = 9223372036854775808 := rfl
  obtain ⟨hleft, hnonneg⟩ := millisLeft_of_plain hcooldown hlast hnow hle
  obtain ⟨hpos, -, hr⟩ := decide_eq_wait_iff.1 hwait
  rw [hleft] at hpos hr
  rw [retention]
  omega

/-- From a creation on record to the end of its cooldown, at all instants outside of leap seconds:
the check lets pass exactly when the cooldown is over. Who has to wait is told at least a second;
that many seconds later they pass, and at no instant up to one second earlier. -/
theorem wait_exact (hcooldown : cooldown ≤ 9000000000000000) (hrecord : c.last? m = some last)
    (hlast : last.isLeap = false) (hnow : now.isLeap = false) (hle : last ≤ now) :
    (c.check cooldown m now = .allowed ↔ retention cooldown ≤ now.since last) ∧
      ∀ r, c.check cooldown m now = .wait r →
        1 ≤ r ∧ c.check cooldown m (now.addSeconds r) = .allowed ∧
          ∀ u, u.isLeap = false → now ≤ u → u ≤ now.addSeconds (r - 1) →
            ∃ r', c.check cooldown m u = .wait r' := by
  simp only [check, hrecord]
  have hallowed {u : Instant} (hu : u.isLeap = false) (hlater : last ≤ u) :=
    decide_eq_allowed_iff_of_plain hcooldown hlast hu hlater
  refine ⟨hallowed hnow hle, fun r hwait => ?_⟩
  obtain ⟨hpos, hover, hunder⟩ := retention_of_wait hcooldown hlast hnow hle hwait
  have hlater : now ≤ now.addSeconds r := by
    obtain ⟨hsecond, hnano⟩ := Instant.addSeconds_of_plain hnow r
    rw [Instant.le_def]
    omega
  refine ⟨hpos, ?_, fun u hu hfrom huntil => ?_⟩
  · rw [hallowed (Instant.isLeap_addSeconds hnow r) (Instant.le_trans hle hlater),
      Instant.since_addSeconds hlast hnow]
    exact hover
  · have hsince : u.since last ≤ now.since last + (r - 1) * 1000000000 := by
      rw [← Instant.since_addSeconds hlast hnow]
      exact Instant.since_le_since_of_plain hlast hu (Instant.isLeap_addSeconds hnow _) huntil
    cases hu' : decide cooldown (some last) u with
    | allowed =>
      have hover' := (hallowed hu (Instant.le_trans hle hfrom)).1 hu'
      omega
    | wait r' => exact ⟨r', rfl⟩
    | overflow r' =>
      have hbound : Word.bound64 = 9223372036854775808 := rfl
      obtain ⟨hleft, hnonneg⟩ := millisLeft_of_plain hcooldown hlast hu (Instant.le_trans hle hfrom)
      obtain ⟨hnoRoom, -⟩ := decide_eq_overflow_iff.1 hu'
      omega

/-- The records after one creation. -/
def lone (cooldown : Nat) (created : Instant) : Cooldowns :=
  empty.record (⟨1⟩, ⟨1⟩) created (retention cooldown)

/-- A nanosecond before the end of a cooldown of a minute, and forty seconds before it. -/
theorem wait_exact_lone :
    (lone 60 (.ofNanos 0 7)).check 60 (⟨1⟩, ⟨1⟩) (.ofNanos 60 6) = .wait 1 ∧
      (lone 60 (.ofNanos 0 7)).check 60 (⟨1⟩, ⟨1⟩) (.ofNanos 60 7) = .allowed ∧
      (lone 60 (.ofNanos 0 7)).check 60 (⟨1⟩, ⟨1⟩) ((Instant.ofNanos 20 6).addSeconds 41) =
        .allowed ∧
      ∃ r, (lone 60 (.ofNanos 0 7)).check 60 (⟨1⟩, ⟨1⟩) (.ofNanos 60 6) = .wait r := by
  have hrecord : (lone 60 (.ofNanos 0 7)).last? (⟨1⟩, ⟨1⟩) = some (.ofNanos 0 7) := by decide
  have hearly : Instant.ofNanos 0 7 ≤ .ofNanos 20 6 := by decide
  have hlate : Instant.ofNanos 0 7 ≤ .ofNanos 60 7 := by decide
  obtain ⟨-, hwaits⟩ := wait_exact (by decide : 60 ≤ _) hrecord (by decide) (by decide) hearly
  obtain ⟨-, hpasses, huntil⟩ := hwaits 41 (by decide)
  obtain ⟨hover, -⟩ := wait_exact (by decide : 60 ≤ _) hrecord (by decide) (by decide) hlate
  exact ⟨by decide, hover.2 (by decide), hpasses,
    huntil (.ofNanos 60 6) (by decide) (by decide) (by decide)⟩

/-- Within a leap second, told to wait a second: a second later the same is told again. With the
creation in a leap second, at the end of its day: the same. And told at the end of a day to wait two
seconds: the leap second between lets pass, which a second later is not yet over. -/
theorem leap_second_unsettles_wait :
    ((lone 60 (.ofNanos 1483228740 700000000)).check 60 (⟨1⟩, ⟨1⟩)
        ⟨1483228799, 1600000000, .inr (by decide)⟩ = .wait 1 ∧
      (lone 60 (.ofNanos 1483228740 700000000)).check 60 (⟨1⟩, ⟨1⟩)
        (Instant.addSeconds ⟨1483228799, 1600000000, .inr (by decide)⟩ 1) = .wait 1) ∧
    ((lone 50341 ⟨36059, 1500000000, .inr (by decide)⟩).check 50341 (⟨1⟩, ⟨1⟩)
        (.ofNanos 86399 900000000) = .wait 1 ∧
      (lone 50341 ⟨36059, 1500000000, .inr (by decide)⟩).check 50341 (⟨1⟩, ⟨1⟩)
        ((Instant.ofNanos 86399 900000000).addSeconds 1) = .wait 1) ∧
    (lone 86400 (.ofNanos 0 200000000)).check 86400 (⟨1⟩, ⟨1⟩) (.ofNanos 86399 100000000) =
        .wait 2 ∧
      (⟨86399, 1900000000, .inr (by decide)⟩ : Instant) ≤
        (Instant.ofNanos 86399 100000000).addSeconds 1 ∧
      (lone 86400 (.ofNanos 0 200000000)).check 86400 (⟨1⟩, ⟨1⟩)
        ⟨86399, 1900000000, .inr (by decide)⟩ = .allowed := by
  decide

/-! ## Overflow -/

theorem word_of_ge (h : Word.bound64 ≤ n) (hlt : n < Word.count64) : word n = n - Word.count64 := by
  have hbound : Word.bound64 = 9223372036854775808 := rfl
  have hcount : (Word.count64 : Int) = 18446744073709551616 := rfl
  rw [word, Int.bmod_def, hcount]
  omega

/-- A sum that leaves the signed words comes back below zero. -/
theorem tdiv_word_neg (h : Word.bound64 - 999 ≤ n) (hlt : n < Word.count64 - 1999) :
    (word (word n + 999)).tdiv 1000 < 0 := by
  have hbound : Word.bound64 = 9223372036854775808 := rfl
  have hcount : (Word.count64 : Int) = 18446744073709551616 := rfl
  have hsum : word (word n + 999) = n + 999 - Word.count64 := by
    have honce : word (word n + 999) = word (n + 999) := Int.bmod_add_bmod
    rw [honce, word_of_ge (by omega) (by omega)]
  rw [hsum, Int.tdiv_eq_ediv]
  split
  · omega
  · rw [Int.sign_eq_one_of_pos (by decide)]
    omega

/-- What is left of the cooldown leaves room for the rounding in a signed word. -/
def HasRoom (cooldown : Nat) (last now : Instant) : Prop :=
  millisLeft cooldown last now < Word.bound64 - 999

theorem neg_of_decide_eq_overflow (hlast : last.Dated) (hnow : now.Dated)
    (h : decide cooldown (some last) now = .overflow r) : r < 0 := by
  have hbound : Word.bound64 = 9223372036854775808 := rfl
  have hcount : (Word.count64 : Int) = 18446744073709551616 := rfl
  obtain ⟨hmin, hmax⟩ := hlast.abs_millisSince_le hnow
  have hcut : cooldownMillis cooldown ≤ Word.bound64 - 1 := Int.min_le_right _ _
  obtain ⟨hleft, hr⟩ := decide_eq_overflow_iff.1 h
  rw [hr]
  refine tdiv_word_neg hleft ?_
  rw [millisLeft]
  omega

/-- A check overflows if and only if what is left of the cooldown leaves no room for the rounding:
the time that has passed never does. A wait that is told is at least a second; one that wraps is
negative. With a cooldown of 9.2 * 10^15 seconds or less there is room at all instants, before the
creation too; with one that is cut to a signed word of milliseconds, from 999 milliseconds after it
on. -/
theorem overflow_iff_not_hasRoom (hlast : last.Dated) (hnow : now.Dated) (cooldown : Nat)
    (hrecord : c.last? m = some last) :
    ((c.check cooldown m now).overflows = true ↔ ¬HasRoom cooldown last now) ∧
      Word.signed? (now.millisSince last) = some (now.millisSince last) ∧
      (∀ r, c.check cooldown m now = .wait r → 1 ≤ r) ∧
      (∀ r, c.check cooldown m now = .overflow r → r < 0) ∧
      (cooldown ≤ 9200000000000000 → HasRoom cooldown last now) ∧
      (9223372036854776 ≤ cooldown → (HasRoom cooldown last now ↔ 999 ≤ now.millisSince last)) := by
  have hbound : Word.bound64 = 9223372036854775808 := rfl
  obtain ⟨hmin, hmax⟩ := hlast.abs_millisSince_le hnow
  simp only [check, hrecord]
  refine ⟨overflows_decide_iff.trans Int.not_lt.symm, Word.signed?_of_fits (by omega) (by omega),
    fun r hwait => ?_, fun r => neg_of_decide_eq_overflow hlast hnow, ?_, ?_⟩
  · obtain ⟨hpos, -, hr⟩ := decide_eq_wait_iff.1 hwait
    omega
  · intro hshort
    rw [HasRoom, millisLeft, cooldownMillis]
    omega
  · intro hlong
    rw [HasRoom, millisLeft, cooldownMillis]
    omega

/-- The last and the first second that have a written form, with the longest cooldown of whole
seconds for which no check may overflow. -/
theorem overflow_iff_not_hasRoom_ends :
    Instant.dawn.Dated ∧ (Instant.ofSecond 8210266876799).Dated ∧
      (lone 9200000000000000 (.ofSecond 8210266876799)).check 9200000000000000 (⟨1⟩, ⟨1⟩)
        Instant.dawn = .wait 9216544868105599 ∧
      HasRoom 9200000000000000 (.ofSecond 8210266876799) Instant.dawn := by
  have hfirst : Instant.dawn.Dated := ⟨by decide, by decide⟩
  have hlast : (Instant.ofSecond 8210266876799).Dated := ⟨by decide, by decide⟩
  have hrecord : (lone 9200000000000000 (.ofSecond 8210266876799)).last? (⟨1⟩, ⟨1⟩) =
      some (.ofSecond 8210266876799) := by decide
  obtain ⟨-, -, -, -, hroom, -⟩ :=
    overflow_iff_not_hasRoom hlast hfirst 9200000000000000 hrecord
  exact ⟨hfirst, hlast, by decide, hroom (by decide)⟩

/-- Variables that set the longest cooldown there is. -/
def longestCooldown : Settings.Variables
  | "DATABASE_URL" => some "postgres://localhost/scout"
  | "COMPETITION_CREATION_COOLDOWN_SECS" => some "18446744073709551615"
  | _ => none

/-- Right after a creation, the check for the longest cooldown overflows. -/
theorem longest_wait_overflows :
    ∃ settings, Settings.ofVariables longestCooldown = .ok settings ∧
      (Instant.ofSecond 0).Dated ∧
      (lone settings.limits.cooldown (.ofSecond 0)).check settings.limits.cooldown (⟨1⟩, ⟨1⟩)
        (.ofSecond 0) = .overflow (-9223372036854774) := by
  refine ⟨⟨"scout", .development, ⟨"postgres://localhost/scout", 20, 2⟩, none,
    ⟨5, 100, 18446744073709551615⟩, ⟨60, 120, "npx knip", "npx jscpd"⟩⟩, ?_, ?_, ?_⟩
  · rfl
  · exact ⟨by decide, by decide⟩
  · decide

end Steward.Cooldowns
