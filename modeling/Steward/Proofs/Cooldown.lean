import Steward.Cooldown
import Steward.Proofs.Time.Clock

/-!
# Records of creations

A record may be pruned once its cooldown is over, and no earlier. The check that a creation has to
pass looks at whole milliseconds; it lets nobody pass who has not waited to the nanosecond.

* `last?_prune`, `last?_record_self`, `last?_record_of_ne`: a record stays until it is replaced or
  its retention has passed.
* `Keyed.last?_enter`, `Keyed.last?_reset`, `Keyed.last?_prune_cases`: what each operation leaves of
  the record of a member.
* `decide_eq_allowed_iff`, `decide_eq_wait_iff`, `decide_eq_overflow_iff`: each decision, by what is
  left of the cooldown.
* `decide_record_self`: who has just created waits for the whole cooldown.
* `retention_le_since_of_decide`: who is allowed to create has waited for the whole cooldown.
* `Logged.decide_record_of_ne`: from a creation on, what is decided about other members is the same
  with its record and without.
-/

namespace Steward.Cooldowns

open Time

variable {c : Cooldowns} {m m' : Member} {t now : Instant} {retention : Int}

/-! ## Records -/

/-- What is filtered out of the records are others, if the record of a member passes. -/
theorem lookup_filter {entries : List (Member × Instant)} {p : Member × Instant → Bool}
    (h : entries.lookup m = some t) (hp : p (m, t) = true) :
    (entries.filter p).lookup m = some t := by
  obtain ⟨before, after, rfl, hbefore⟩ := List.lookup_eq_some_iff.1 h
  refine List.lookup_eq_some_iff.2 ⟨before.filter p, after.filter p, ?_, fun e he => ?_⟩
  · rw [List.filter_append, List.filter_cons_of_pos hp]
  · exact hbefore e (List.mem_filter.1 he).1

theorem lookup_filter_of_nodup {entries : List (Member × Instant)} {p : Member × Instant → Bool}
    (hkeys : (entries.map (·.1)).Nodup) :
    (entries.filter p).lookup m = (entries.lookup m).filter fun t => p (m, t) := by
  induction entries with
  | nil => rfl
  | cons e entries ih =>
    obtain ⟨m', t⟩ := e
    rw [List.map_cons, List.nodup_cons] at hkeys
    obtain ⟨hnew, hkeys⟩ := hkeys
    by_cases hm : m = m'
    · subst hm
      have hnone : entries.lookup m = none := by
        rw [List.lookup_eq_none_iff]
        intro e he
        have hne : m ≠ e.1 := by
          rintro rfl
          exact hnew (List.mem_map_of_mem (f := (·.1)) he)
        simpa using hne
      by_cases hp : p (m, t) = true
      · simp [hp, Option.filter]
      · simp [hp, ih hkeys, hnone, Option.filter]
    · have hbeq : (m == m') = false := beq_eq_false_iff_ne.2 hm
      by_cases hp : p (m', t) = true <;> simp [hp, List.lookup_cons, hbeq, ih hkeys]

theorem last?_prune (h : c.last? m = some t) :
    (c.prune now retention).last? m = some t ∨ retention ≤ now.since t := by
  unfold prune
  split
  · exact .inl h
  · by_cases hyoung : now.since t < retention
    · exact .inl (lookup_filter h (by simpa using hyoung))
    · exact .inr (Int.not_lt.1 hyoung)

theorem last?_record_self (c : Cooldowns) (m : Member) (now : Instant) (retention : Int) :
    (c.record m now retention).last? m = some now ∨ retention ≤ now.since now := by
  refine last?_prune ?_
  simp [last?]

/-- No other creation of the member is left. -/
theorem eq_of_last?_record_self (h : (c.record m now retention).last? m = some t) : t = now := by
  obtain ⟨before, after, hentries, -⟩ := List.lookup_eq_some_iff.1 h
  have hmem : (m, t) ∈ (c.record m now retention).entries := by simp [hentries]
  have hentered : (m, t) ∈ (m, now) :: (c.reset m).entries := by
    unfold record prune at hmem
    split at hmem
    · exact hmem
    · exact (List.mem_filter.1 hmem).1
  rcases List.mem_cons.1 hentered with heq | hreset
  · exact (Prod.mk.inj heq).2
  · have hne : m ≠ m := of_decide_eq_true (List.mem_filter.1 hreset).2
    exact absurd rfl hne

theorem last?_record_of_ne (hne : m ≠ m') (h : c.last? m = some t) :
    (c.record m' now retention).last? m = some t ∨ retention ≤ now.since t := by
  refine last?_prune ?_
  have hreset : (c.reset m').last? m = some t := lookup_filter h (by simpa using hne)
  have hkey : (m == m') = false := beq_eq_false_iff_ne.2 hne
  simpa [last?, List.lookup_cons, hkey] using hreset

/-! ## One record for each member -/

/-- No member is recorded twice. -/
def Keyed (c : Cooldowns) : Prop := (c.entries.map (·.1)).Nodup

theorem keyed_empty : Keyed .empty := List.nodup_nil

theorem Keyed.sublist {entries : List (Member × Instant)} (h : c.Keyed)
    (hs : entries.Sublist c.entries) : Keyed ⟨entries⟩ :=
  List.Nodup.sublist (hs.map _) h

theorem Keyed.reset (h : c.Keyed) (m : Member) : (c.reset m).Keyed := h.sublist List.filter_sublist

theorem Keyed.prune (h : c.Keyed) (u : Instant) (retention : Int) :
    (c.prune u retention).Keyed := by
  unfold Cooldowns.prune
  split
  · exact h
  · exact h.sublist List.filter_sublist

theorem Keyed.enter (h : c.Keyed) (m : Member) (now : Instant) :
    Keyed ⟨(m, now) :: (c.reset m).entries⟩ := by
  rw [Keyed, List.map_cons, List.nodup_cons]
  refine ⟨fun hmem => ?_, h.reset m⟩
  obtain ⟨e, he, hkey⟩ := List.mem_map.1 hmem
  have hne : e.1 ≠ m := of_decide_eq_true (List.mem_filter.1 he).2
  exact hne hkey

theorem Keyed.last?_reset (h : c.Keyed) (m m' : Member) :
    (c.reset m').last? m = if m = m' then none else c.last? m := by
  unfold last? Cooldowns.reset
  rw [lookup_filter_of_nodup h]
  by_cases hm : m = m' <;> cases c.entries.lookup m <;> simp [Option.filter, hm]

theorem Keyed.last?_enter (h : c.Keyed) (m m' : Member) (now : Instant) :
    last? ⟨(m', now) :: (c.reset m').entries⟩ m = if m = m' then some now else c.last? m := by
  by_cases hm : m = m'
  · subst hm
    simp [last?]
  · have hbeq : (m == m') = false := beq_eq_false_iff_ne.2 hm
    have hreset := h.last?_reset m m'
    rw [if_neg hm] at hreset ⊢
    simp only [last?, List.lookup_cons, hbeq]
    exact hreset

/-- A record that is pruned is one whose retention is over. -/
theorem Keyed.last?_prune_cases (h : c.Keyed) (m : Member) (u : Instant) (retention : Int) :
    (c.prune u retention).last? m = c.last? m ∨
      (c.prune u retention).last? m = none ∧ ∃ t, c.last? m = some t ∧ retention ≤ u.since t := by
  by_cases hlong : longest < retention
  · rw [Cooldowns.prune, if_pos hlong]
    exact .inl rfl
  · have hfilter : (c.prune u retention).last? m =
        (c.last? m).filter fun t => u.since t < retention := by
      rw [Cooldowns.prune, if_neg hlong]
      exact lookup_filter_of_nodup h
    rw [hfilter]
    cases hlast : c.last? m with
    | none => exact .inl rfl
    | some t =>
      by_cases hyoung : u.since t < retention
      · left
        simp [Option.filter, hyoung]
      · right
        have hnone : (some t).filter (fun t => u.since t < retention) = none := by
          simp [Option.filter, hyoung]
        exact ⟨hnone, t, rfl, Int.not_lt.1 hyoung⟩

/-! ## What is left of a cooldown -/

section Decisions

variable {cooldown : Nat} {last : Instant} {n r : Int}

/-- The milliseconds that are left of a cooldown at `now`. -/
def millisLeft (cooldown : Nat) (last now : Instant) : Int :=
  cooldownMillis cooldown - now.millisSince last

theorem roundUp_of_fits (h0 : 0 ≤ n) (h : n < Word.bound64 - 999) :
    roundUp n = .wait ((n + 999) / 1000) := by
  have hbound : Word.bound64 = 9223372036854775808 := rfl
  have hleft : Word.signed? n = some n := Word.signed?_of_fits (by omega) (by omega)
  have hsum : Word.signed? (n + 999) = some (n + 999) := Word.signed?_of_fits (by omega) (by omega)
  rw [roundUp, hleft, Option.bind_some, hsum]
  exact congrArg Decision.wait (Int.tdiv_eq_ediv_of_nonneg (by omega))

/-- Either what is left overflows, or the sum that rounds it up. -/
theorem roundUp_of_ge (h : Word.bound64 - 999 ≤ n) :
    roundUp n = .overflow ((word (word n + 999)).tdiv 1000) := by
  have hbound : Word.bound64 = 9223372036854775808 := rfl
  unfold roundUp
  by_cases hn : n < Word.bound64
  · rw [Word.signed?_of_fits (by omega) hn, Option.bind_some, Word.signed?_of_ge (by omega)]
  · rw [Word.signed?_of_ge (Int.not_lt.1 hn), Option.bind_none]

/-- What is decided goes by what is left of the cooldown. -/
theorem decide_some (cooldown : Nat) (last now : Instant) :
    decide cooldown (some last) now =
      if millisLeft cooldown last now ≤ 0 then .allowed
      else if millisLeft cooldown last now < Word.bound64 - 999 then
        .wait ((millisLeft cooldown last now + 999) / 1000)
      else .overflow ((word (word (millisLeft cooldown last now) + 999)).tdiv 1000) := by
  unfold decide
  by_cases hover : cooldownMillis cooldown ≤ now.millisSince last
  · have hleft : millisLeft cooldown last now ≤ 0 := Int.sub_nonpos_of_le hover
    simp only [if_pos hover, if_pos hleft]
  · have hleft : ¬millisLeft cooldown last now ≤ 0 := by
      unfold millisLeft
      omega
    simp only [if_neg hover, if_neg hleft]
    split
    · next hroom => exact roundUp_of_fits (Int.le_of_lt (Int.not_le.1 hleft)) hroom
    · next hroom => exact roundUp_of_ge (Int.not_lt.1 hroom)

theorem decide_eq_allowed_iff :
    decide cooldown (some last) now = .allowed ↔ millisLeft cooldown last now ≤ 0 := by
  rw [decide_some]
  split
  · next h => exact iff_of_true rfl h
  · next h =>
    refine iff_of_false ?_ h
    split <;> nofun

theorem decide_eq_wait_iff :
    decide cooldown (some last) now = .wait r ↔ 0 < millisLeft cooldown last now ∧
      millisLeft cooldown last now < Word.bound64 - 999 ∧
        r = (millisLeft cooldown last now + 999) / 1000 := by
  rw [decide_some]
  split
  · next h => exact iff_of_false nofun fun hwait => Int.not_le.2 hwait.1 h
  · next h =>
    rw [and_iff_right (Int.not_le.1 h)]
    split
    · next hroom =>
      rw [Decision.wait.injEq, and_iff_right hroom]
      exact eq_comm
    · next hroom => exact iff_of_false nofun fun hwait => hroom hwait.1

theorem decide_eq_overflow_iff :
    decide cooldown (some last) now = .overflow r ↔
      Word.bound64 - 999 ≤ millisLeft cooldown last now ∧
        r = (word (word (millisLeft cooldown last now) + 999)).tdiv 1000 := by
  have hbound : Word.bound64 = 9223372036854775808 := rfl
  rw [decide_some]
  split
  · next h => exact iff_of_false nofun fun hover => by omega
  · split
    · next hroom => exact iff_of_false nofun fun hover => Int.not_le.2 hroom hover.1
    · next hroom =>
      rw [Decision.overflow.injEq, and_iff_right (Int.not_lt.1 hroom)]
      exact eq_comm

theorem overflows_decide_iff : (decide cooldown (some last) now).overflows = true ↔
    Word.bound64 - 999 ≤ millisLeft cooldown last now := by
  cases hd : decide cooldown (some last) now with
  | allowed =>
    have hbound : Word.bound64 = 9223372036854775808 := rfl
    have hleft := decide_eq_allowed_iff.1 hd
    exact iff_of_false nofun (by omega)
  | wait r => exact iff_of_false nofun (Int.not_le.2 (decide_eq_wait_iff.1 hd).2.1)
  | overflow r => exact iff_of_true rfl (decide_eq_overflow_iff.1 hd).1

/-! ## Decisions -/

/-- The cooldown is cut to a signed word of milliseconds. One that is longer than that is never
over, since no two instants that a clock may show are so far apart. -/
theorem retention_le_since_of_decide (h : decide cooldown (some t) now = .allowed) (ht : t.Shown)
    (hnow : now.Shown) (hle : t ≤ now) : Cooldowns.retention cooldown ≤ now.since t := by
  have hbound := ht.millisSince_lt_bound hnow
  have hmillis : now.millisSince t = now.since t / 1000000 :=
    Int.tdiv_eq_ediv_of_nonneg (ht.since_nonneg hnow hle)
  have hover := decide_eq_allowed_iff.1 h
  rw [millisLeft, cooldownMillis, hmillis] at hover
  rw [hmillis] at hbound
  rw [Cooldowns.retention]
  omega

theorem decide_of_retention_le (h : Cooldowns.retention cooldown ≤ now.since t) :
    decide cooldown (some t) now = .allowed := by
  rw [Cooldowns.retention] at h
  have hmillis : now.millisSince t = now.since t / 1000000 :=
    Int.tdiv_eq_ediv_of_nonneg (by omega)
  rw [decide_eq_allowed_iff, millisLeft, cooldownMillis, hmillis]
  omega

/-- Whoever has just created has to wait for the whole cooldown, if there is one. It is told in full
as long as its milliseconds fit into a signed word with the rounding. -/
theorem decide_record_self (c : Cooldowns) (m : Member) (now : Instant)
    (h : cooldown ≤ 9000000000000000) :
    decide cooldown ((c.record m now (Cooldowns.retention cooldown)).last? m) now =
      if cooldown = 0 then .allowed else .wait cooldown := by
  have hstays := last?_record_self c m now (Cooldowns.retention cooldown)
  cases hlast : (c.record m now (Cooldowns.retention cooldown)).last? m with
  | none =>
    rw [hlast, Instant.since_self] at hstays
    have hzero : cooldown = 0 := by
      rcases hstays with hnone | hpassed
      · cases hnone
      · unfold Cooldowns.retention at hpassed
        omega
    rw [if_pos hzero]
    rfl
  | some t =>
    obtain rfl := eq_of_last?_record_self hlast
    have hbound : Word.bound64 = 9223372036854775808 := rfl
    have hwhole : millisLeft cooldown t t = cooldown * 1000 := by
      simp only [millisLeft, cooldownMillis, Instant.millisSince, Instant.since_self, Int.zero_tdiv]
      omega
    by_cases hzero : cooldown = 0
    · rw [if_pos hzero, decide_eq_allowed_iff]
      omega
    · rw [if_neg hzero, decide_eq_wait_iff]
      omega

end Decisions

/-! ## Records of different members -/

/-- No member is recorded twice, and nothing is recorded but instants up to `now` that a clock may
show. -/
structure Logged (c : Cooldowns) (now : Instant) : Prop where
  keyed : c.Keyed
  shown : ∀ e ∈ c.entries, e.2.Shown ∧ e.2 ≤ now

theorem logged_empty (now : Instant) : Logged .empty now := ⟨keyed_empty, List.forall_mem_nil _⟩

theorem Logged.later (h : c.Logged now) {u : Instant} (hle : now ≤ u) : c.Logged u where
  keyed := h.keyed
  shown e he := ⟨(h.shown e he).1, Instant.le_trans (h.shown e he).2 hle⟩

theorem Logged.shown_of_last? (h : c.Logged now) (hlast : c.last? m = some t) :
    t.Shown ∧ t ≤ now := by
  obtain ⟨before, after, hentries, -⟩ := List.lookup_eq_some_iff.1 hlast
  have hmem : (m, t) ∈ c.entries := by simp [hentries]
  exact h.shown _ hmem

theorem Logged.enter (h : c.Logged now) (hnow : now.Shown) (m : Member) :
    Logged ⟨(m, now) :: (c.reset m).entries⟩ now := by
  refine ⟨h.keyed.enter m now, fun e he => ?_⟩
  rcases List.mem_cons.1 he with rfl | he
  · exact ⟨hnow, Instant.le_refl now⟩
  · exact h.shown e (List.mem_filter.1 he).1

theorem Logged.prune (h : c.Logged now) (u : Instant) (retention : Int) :
    (c.prune u retention).Logged now := by
  refine ⟨h.keyed.prune u retention, fun e he => h.shown e ?_⟩
  unfold Cooldowns.prune at he
  split at he
  · exact he
  · exact (List.mem_filter.1 he).1

theorem Logged.record (h : c.Logged now) (hnow : now.Shown) (m : Member) (retention : Int) :
    (c.record m now retention).Logged now :=
  (h.enter hnow m).prune now retention

/-- From a creation on, what is decided about other members is the same with its record and
without. -/
theorem Logged.decide_record_of_ne (h : c.Logged now) (hnow : now.Shown) (hne : m ≠ m')
    (cooldown : Nat) {u : Instant} (hu : u.Shown) (hle : now ≤ u) :
    decide cooldown ((c.record m' now (Cooldowns.retention cooldown)).last? m) u =
      decide cooldown (c.last? m) u := by
  have hcases := (h.enter hnow m').keyed.last?_prune_cases m now (Cooldowns.retention cooldown)
  rw [h.keyed.last?_enter, if_neg hne] at hcases
  obtain hsame | ⟨hnone, t, hlast, hover⟩ := hcases
  · rw [Cooldowns.record, hsame]
  · have hlater : Cooldowns.retention cooldown ≤ u.since t :=
      Int.le_trans hover ((h.shown_of_last? hlast).1.since_le_since hnow hu hle)
    rw [Cooldowns.record, hnone, hlast, decide_of_retention_le hlater]
    rfl

end Steward.Cooldowns
