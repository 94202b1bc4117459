import Mathlib.Logic.Function.Basic
import Steward.Proofs.Cooldown

/-!
# Pruning goes unnoticed

Every new record prunes those of all members, and anyone may prune besides, with a retention of the
cooldown or more. No decision shows it: they are those of a ledger in which the last creation of
each member is kept for good.

* `Covers`: what is missing from the records is over. `Step.covers`: every step keeps it so.
* `pruning_unnoticed`: all decisions of a run are those of the ledger, outside of leap seconds.
* `leap_second_unmasks_pruning`: a leap second that ends takes back a second that had passed.
-/

namespace Steward.Cooldowns

open Time

variable {cooldown : Nat} {c : Cooldowns} {m : Member} {now u : Instant}

/-! ## Runs -/

/-- What is asked of the records. -/
inductive Op where
  | check (m : Member)
  | record (m : Member)
  | reset (m : Member)
  | prune (retention : Int)

/-- An operation, with the instant at which it comes. -/
structure Step where
  op : Op
  now : Instant

/-- The decision, where one is asked for, and the records after the step. -/
def Step.perform (cooldown : Nat) (c : Cooldowns) (s : Step) : Option Decision × Cooldowns :=
  match s.op with
  | .check m => (some (c.check cooldown m s.now), c)
  | .record m => (none, c.record m s.now (retention cooldown))
  | .reset m => (none, c.reset m)
  | .prune retention => (none, c.prune s.now retention)

/-- The last creation of every member that has not been reset since. -/
abbrev Ledger := Member → Option Instant

/-- No creation entered. -/
def Ledger.empty : Ledger := fun _ => none

/-- The decision by a ledger, where one is asked for, and the ledger after the step. Nothing is
pruned. -/
def Ledger.perform (cooldown : Nat) (l : Ledger) (s : Step) : Option Decision × Ledger :=
  match s.op with
  | .check m => (some (decide cooldown (l m) s.now), l)
  | .record m => (none, Function.update l m (some s.now))
  | .reset m => (none, Function.update l m none)
  | .prune _ => (none, l)

/-- The decisions of a run, step by step. -/
def decisions {σ : Type} (perform : σ → Step → Option Decision × σ) : σ → List Step →
    List (Option Decision)
  | _, [] => []
  | state, s :: rest => (perform state s).1 :: decisions perform (perform state s).2 rest

/-! ## Records and ledger -/

/-- The records hold what the ledger holds, but for creations whose cooldown is over at `now`. -/
structure Covers (cooldown : Nat) (l : Ledger) (c : Cooldowns) (now : Instant) : Prop where
  keyed : c.Keyed
  plain : ∀ m t, l m = some t → t.isLeap = false
  kept : ∀ m, c.last? m = l m ∨
    c.last? m = none ∧ ∃ t, l m = some t ∧ retention cooldown ≤ now.since t

variable {l : Ledger}

theorem covers_empty (cooldown : Nat) (now : Instant) : Covers cooldown .empty .empty now where
  keyed := keyed_empty
  plain _ _ h := nomatch h
  kept _ := .inl rfl

theorem Covers.later (h : Covers cooldown l c now) (hnow : now.isLeap = false)
    (hu : u.isLeap = false) (hle : now ≤ u) : Covers cooldown l c u where
  keyed := h.keyed
  plain := h.plain
  kept m := by
    refine (h.kept m).imp_right ?_
    rintro ⟨hnone, t, ht, hover⟩
    refine ⟨hnone, t, ht, Int.le_trans hover ?_⟩
    exact Instant.since_le_since_of_plain (h.plain m t ht) hnow hu hle

/-- A creation that is missing from the records limits nobody any more. -/
theorem Covers.check_eq (h : Covers cooldown l c now) (m : Member) :
    c.check cooldown m now = decide cooldown (l m) now := by
  unfold check
  obtain hsame | ⟨hnone, t, ht, hover⟩ := h.kept m
  · rw [hsame]
  · rw [hnone, ht, decide_of_retention_le hover]
    rfl

theorem Covers.prune (h : Covers cooldown l c now) {r : Int} (hr : retention cooldown ≤ r) :
    Covers cooldown l (c.prune now r) now where
  keyed := h.keyed.prune now r
  plain := h.plain
  kept m := by
    obtain hsame | ⟨hgone, t, ht, hover⟩ := h.keyed.last?_prune_cases m now r
    · rw [hsame]
      exact h.kept m
    · obtain hkept | ⟨hnone, -⟩ := h.kept m
      · exact .inr ⟨hgone, t, hkept ▸ ht, Int.le_trans hr hover⟩
      · rw [hnone] at ht
        cases ht

theorem Covers.enter (h : Covers cooldown l c now) (hnow : now.isLeap = false) (m : Member) :
    Covers cooldown (Function.update l m (some now)) ⟨(m, now) :: (c.reset m).entries⟩ now where
  keyed := h.keyed.enter m now
  plain m' t ht := by
    by_cases hm : m' = m
    · rw [hm, Function.update_self] at ht
      exact Option.some.inj ht ▸ hnow
    · rw [Function.update_of_ne hm] at ht
      exact h.plain m' t ht
  kept m' := by
    rw [h.keyed.last?_enter]
    by_cases hm : m' = m
    · rw [if_pos hm, hm, Function.update_self]
      exact .inl rfl
    · rw [if_neg hm, Function.update_of_ne hm]
      exact h.kept m'

theorem Covers.reset (h : Covers cooldown l c now) (m : Member) :
    Covers cooldown (Function.update l m none) (c.reset m) now where
  keyed := h.keyed.reset m
  plain m' t ht := by
    by_cases hm : m' = m
    · rw [hm, Function.update_self] at ht
      cases ht
    · rw [Function.update_of_ne hm] at ht
      exact h.plain m' t ht
  kept m' := by
    rw [h.keyed.last?_reset]
    by_cases hm : m' = m
    · rw [if_pos hm, hm, Function.update_self]
      exact .inl rfl
    · rw [if_neg hm, Function.update_of_ne hm]
      exact h.kept m'

/-- A step prunes no creation whose cooldown is not over. -/
def Step.Keeps (cooldown : Nat) (s : Step) : Prop := ∀ r, s.op = .prune r → retention cooldown ≤ r

theorem Step.covers {s : Step} (h : Covers cooldown l c s.now) (hplain : s.now.isLeap = false)
    (hkeeps : s.Keeps cooldown) :
    Covers cooldown (Ledger.perform cooldown l s).2 (s.perform cooldown c).2 s.now := by
  obtain ⟨op, now⟩ := s
  cases op with
  | check m => exact h
  | record m => exact (h.enter hplain m).prune (Int.le_refl _)
  | reset m => exact h.reset m
  | prune r => exact h.prune (hkeeps r rfl)

theorem Step.decision_eq {s : Step} (h : Covers cooldown l c s.now) :
    (s.perform cooldown c).1 = (Ledger.perform cooldown l s).1 := by
  obtain ⟨op, now⟩ := s
  cases op with
  | check m => exact congrArg some (h.check_eq m)
  | record m | reset m | prune r => rfl

/-! ## Decisions -/

/-- The records cover the ledger at every step that is still to come. -/
theorem decisions_eq_of_covers {steps : List Step} (h : ∀ s ∈ steps, Covers cooldown l c s.now)
    (hplain : ∀ s ∈ steps, s.now.isLeap = false)
    (horder : steps.Pairwise fun a b => a.now ≤ b.now)
    (hkeeps : ∀ s ∈ steps, s.Keeps cooldown) :
    decisions (fun c s => s.perform cooldown c) c steps =
      decisions (Ledger.perform cooldown) l steps := by
  induction steps generalizing l c with
  | nil => rfl
  | cons s rest ih =>
    simp only [List.forall_mem_cons] at h hplain hkeeps
    obtain ⟨hnext, horder⟩ := List.pairwise_cons.1 horder
    have hafter := Step.covers h.1 hplain.1 hkeeps.1
    rw [decisions, decisions, Step.decision_eq h.1]
    congr 1
    refine ih (fun s' hs' => ?_) hplain.2 horder hkeeps.2
    exact hafter.later hplain.1 (hplain.2 s' hs') (hnext s' hs')

/-- Whatever is recorded, reset and pruned, as long as nothing is pruned within its cooldown: every
decision is that of the ledger, in which nothing is pruned. The instants do not go back, and none
lies inside a leap second. -/
theorem pruning_unnoticed (cooldown : Nat) {steps : List Step}
    (horder : steps.Pairwise fun a b => a.now ≤ b.now)
    (hplain : ∀ s ∈ steps, s.now.isLeap = false)
    (hkeeps : ∀ s ∈ steps, s.Keeps cooldown) :
    decisions (fun c s => s.perform cooldown c) .empty steps =
      decisions (Ledger.perform cooldown) .empty steps :=
  decisions_eq_of_covers (fun s _ => covers_empty cooldown s.now) hplain horder hkeeps

/-- Two members and a third whose record prunes the first. -/
def busy : List Step := [
  ⟨.record (⟨1⟩, ⟨1⟩), .ofSecond 0⟩,
  ⟨.record (⟨1⟩, ⟨2⟩), .ofNanos 59 999999999⟩,
  ⟨.record (⟨1⟩, ⟨3⟩), .ofSecond 60⟩,
  ⟨.check (⟨1⟩, ⟨1⟩), .ofSecond 60⟩,
  ⟨.check (⟨1⟩, ⟨2⟩), .ofSecond 60⟩,
  ⟨.prune 60000000001, .ofSecond 100⟩,
  ⟨.reset (⟨1⟩, ⟨3⟩), .ofSecond 100⟩,
  ⟨.check (⟨1⟩, ⟨3⟩), .ofSecond 100⟩,
  ⟨.check (⟨1⟩, ⟨2⟩), .ofSecond 100⟩]

theorem pruning_unnoticed_busy :
    ((Cooldowns.empty.record (⟨1⟩, ⟨1⟩) (.ofSecond 0) (retention 60)).record (⟨1⟩, ⟨3⟩)
        (.ofSecond 60) (retention 60)).last? (⟨1⟩, ⟨1⟩) = none ∧
      decisions (fun c s => s.perform 60 c) .empty busy =
        [none, none, none, some .allowed, some (.wait 60), none, none, some .allowed,
          some (.wait 20)] := by
  refine ⟨by decide, (pruning_unnoticed 60 (by decide) (by decide) ?_).trans (by decide)⟩
  simp [busy, Step.Keeps, retention]

/-! ## Leap seconds -/

/-- A creation; the record of another member, which prunes it; and a check. -/
def passing (created recorded checked : Instant) : List Step := [
  ⟨.record (⟨1⟩, ⟨1⟩), created⟩, ⟨.record (⟨1⟩, ⟨2⟩), recorded⟩, ⟨.check (⟨1⟩, ⟨1⟩), checked⟩]

/-- The check is allowed after the pruning, and is not by the ledger. -/
def Unmasks (cooldown : Nat) (steps : List Step) : Prop :=
  (steps.Pairwise fun a b => a.now ≤ b.now) ∧ (∀ s ∈ steps, s.Keeps cooldown) ∧
    decisions (fun c s => s.perform cooldown c) .empty steps = [none, none, some .allowed] ∧
    decisions (Ledger.perform cooldown) .empty steps = [none, none, some (.wait 1)]

theorem keeps_of_mem_passing {created recorded checked : Instant} {s : Step}
    (h : s ∈ passing created recorded checked) : s.Keeps cooldown := by
  intro r hr
  simp only [passing, List.mem_cons, List.not_mem_nil, or_false] at h
  rcases h with rfl | rfl | rfl <;> cases hr

/-- A leap second counts only for instants within it and for those after it on its day, so that time
seems to go back when it ends or its day does. It is enough that one instant lies in a leap second:
that of the pruning, of the creation or of the check. -/
theorem leap_second_unmasks_pruning :
    Unmasks 60 (passing (.ofNanos 1483228740 500000000) ⟨1483228799, 1600000000, .inr (by decide)⟩
        (.ofNanos 1483228800 200000000)) ∧
      Unmasks 50340 (passing ⟨36059, 1500000000, .inr (by decide)⟩ (.ofNanos 86399 900000000)
        (.ofNanos 86400 200000000)) ∧
      Unmasks 86359 (passing (.ofNanos 36100 300000000) (.ofNanos 122459 900000000)
        ⟨122459, 1100000000, .inr (by decide)⟩) := by
  refine ⟨?_, ?_, ?_⟩
  all_goals exact ⟨by decide, fun s hs => keeps_of_mem_passing hs, by decide, by decide⟩

end Steward.Cooldowns
