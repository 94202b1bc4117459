import Steward.Proofs.Store.Tables

/-!
# Orders of lists

Lists are sorted by an instant and then by a number. Sorting neither loses nor repeats a row, and
where no two rows share their number, each row comes strictly before those after it.

* `upTo`: the order by instant and number, which is linear.
* `pairwise_competitionsOf`, `pairwise_participantsOf`: the lists are in order.
* `mem_competitionsOf`, `mem_participantsOf`: a list has the rows of its target.
* `IsListing`: what a list of grants may be, whose table is in no particular order.
-/

namespace Steward.Store

open Time

/-! ## By instant, then by number -/

/-- Whether `a` comes no later than `b`: by instant, then by number. -/
def upTo (a b : Instant × Int) : Bool := a.1 < b.1 || a.1 = b.1 && a.2 ≤ b.2

theorem upTo_iff {a b : Instant × Int} :
    upTo a b = true ↔ a.1 < b.1 ∨ a.1 = b.1 ∧ a.2 ≤ b.2 := by
  simp only [upTo, Bool.or_eq_true, Bool.and_eq_true, decide_eq_true_eq]

theorem upTo_trans {a b c : Instant × Int} (hab : upTo a b = true) (hbc : upTo b c = true) :
    upTo a c = true := by
  rw [upTo_iff] at hab hbc ⊢
  rcases hab with hlt | ⟨heq, hle⟩
  · left
    rcases hbc with hlt' | ⟨heq', -⟩
    · rw [Instant.lt_def] at *
      omega
    · rwa [← heq']
  · rw [heq]
    rcases hbc with hlt' | ⟨heq', hle'⟩
    · exact .inl hlt'
    · exact .inr ⟨heq', Int.le_trans hle hle'⟩

theorem upTo_total (a b : Instant × Int) : (upTo a b || upTo b a) = true := by
  rw [Bool.or_eq_true, upTo_iff, upTo_iff]
  by_cases hab : a.1 < b.1
  · exact .inl (.inl hab)
  · by_cases hba : b.1 < a.1
    · exact .inr (.inl hba)
    · have heq : a.1 = b.1 := Instant.le_antisymm (Instant.not_lt.1 hba) (Instant.not_lt.1 hab)
      rcases Int.le_total a.2 b.2 with hle | hle
      · exact .inl (.inr ⟨heq, hle⟩)
      · exact .inr (.inr ⟨heq.symm, hle⟩)

/-- Between different numbers the order is strict. -/
theorem upTo_strict {a b : Instant × Int} (h : upTo a b = true) (hne : a.2 ≠ b.2) :
    a.1 < b.1 ∨ a.1 = b.1 ∧ a.2 < b.2 := by
  rw [upTo_iff] at h
  exact h.imp_right fun ⟨heq, hle⟩ => ⟨heq, by omega⟩

variable {s : Store} {server : Snowflake} {id : Int}

/-! ## Competitions -/

theorem newer_eq (a b : Competition) :
    newer a b = upTo (b.createdAt, b.id) (a.createdAt, a.id) := by
  simp only [newer, upTo, eq_comm]

theorem mem_competitionsOf {c : Competition} :
    c ∈ s.competitionsOf server ↔ c ∈ s.competitions ∧ c.server = server := by
  rw [competitionsOf, List.mem_mergeSort, List.mem_filter, decide_eq_true_eq]

theorem Sound.nodup_competitionsOf (h : s.Sound) (server : Snowflake) :
    ((s.competitionsOf server).map (·.id)).Nodup := by
  rw [competitionsOf, ((List.mergeSort_perm _ _).map _).nodup_iff]
  exact h.nodup_ids.sublist (List.filter_sublist.map _)

/-- A list of competitions goes from the newest to the oldest, and at one instant from the highest
identifier to the lowest. -/
theorem Sound.pairwise_competitionsOf (h : s.Sound) (server : Snowflake) :
    (s.competitionsOf server).Pairwise fun a b =>
      b.createdAt < a.createdAt ∨ b.createdAt = a.createdAt ∧ b.id < a.id := by
  have hsorted : (s.competitionsOf server).Pairwise fun a b => newer a b = true := by
    refine List.pairwise_mergeSort (fun a b c hab hbc => ?_) (fun a b => ?_) _
    · rw [newer_eq] at *
      exact upTo_trans hbc hab
    · rw [newer_eq, newer_eq]
      exact upTo_total _ _
  have hids := List.pairwise_map.1 (h.nodup_competitionsOf server)
  refine (hsorted.and hids).imp fun {a b} hab => ?_
  obtain ⟨hnewer, hne⟩ := hab
  rw [newer_eq] at hnewer
  exact upTo_strict hnewer (Ne.symm hne)

/-! ## Participants -/

theorem listedBefore_of_some {a b : Participant} {x y : Instant} (ha : listedAt a = some x)
    (hb : listedAt b = some y) : listedBefore a b = upTo (x, a.player) (y, b.player) := by
  rw [listedBefore, ha, hb]
  rfl

theorem listedBefore_trans (a b c : Participant) (hab : listedBefore a b = true)
    (hbc : listedBefore b c = true) : listedBefore a c = true := by
  cases ha : listedAt a <;> cases hb : listedAt b <;> cases hc : listedAt c
  case some.some.some x y z =>
    rw [listedBefore_of_some ha hb] at hab
    rw [listedBefore_of_some hb hc] at hbc
    rw [listedBefore_of_some ha hc]
    exact upTo_trans hab hbc
  all_goals
    simp only [listedBefore, ha, hb, hc, decide_eq_true_eq, Bool.false_eq_true] at *
  exact Int.le_trans hab hbc

theorem listedBefore_total (a b : Participant) :
    (listedBefore a b || listedBefore b a) = true := by
  cases ha : listedAt a <;> cases hb : listedAt b
  case some.some x y =>
    rw [listedBefore_of_some ha hb, listedBefore_of_some hb ha]
    exact upTo_total _ _
  all_goals simp only [listedBefore, ha, hb, Bool.or_true, Bool.true_or, Bool.or_eq_true,
    decide_eq_true_eq]
  exact Int.le_total _ _

theorem mem_participantsOf {p : Participant} :
    p ∈ s.participantsOf id ↔ p ∈ s.participants ∧ p.competition = id := by
  rw [participantsOf, List.mem_mergeSort, List.mem_filter, decide_eq_true_eq]

/-- No player is listed twice. -/
theorem Sound.nodup_participantsOf (h : s.Sound) (id : Int) :
    ((s.participantsOf id).map (·.player)).Nodup := by
  have hkeys : (s.participants.filter (·.competition = id)).Pairwise fun a b => a.key ≠ b.key :=
    (List.pairwise_map.1 h.keys).sublist List.filter_sublist
  rw [participantsOf, ((List.mergeSort_perm _ _).map _).nodup_iff]
  refine List.pairwise_map.2 (hkeys.imp_of_mem fun {a b} ha hb hne hplayer => ?_)
  have hcompetition : a.competition = b.competition := by
    rw [of_decide_eq_true (List.mem_filter.1 ha).2, of_decide_eq_true (List.mem_filter.1 hb).2]
  exact hne (Prod.ext hcompetition hplayer)

theorem Sound.pairwise_participantsOf (h : s.Sound) (id : Int) :
    (s.participantsOf id).Pairwise fun a b => listedBefore a b = true ∧ a.player ≠ b.player :=
  (List.pairwise_mergeSort listedBefore_trans listedBefore_total _).and
    (List.pairwise_map.1 (h.nodup_participantsOf id))

theorem length_filter_participantsOf (s : Store) (id : Int) :
    ((s.participantsOf id).filter (·.isActive)).length = s.countActive id := by
  have hperm := (List.mergeSort_perm (s.participants.filter (·.competition = id)) listedBefore)
  rw [participantsOf, (hperm.filter _).length_eq, List.filter_filter, countActive,
    List.countP_eq_length_filter]
  simp only [Bool.and_comm]

/-! ## Grants -/

/-- A listing of the grants of a server: each of them once, oldest first. -/
structure IsListing (s : Store) (server : Snowflake) (listed : List Grant) : Prop where
  perm : listed.Perm (s.grants.filter (·.server = server))
  sorted : listed.Pairwise fun a b => a.grantedAt ≤ b.grantedAt

theorem grantedBefore_iff {a b : Grant} :
    grantedBefore a b = true ↔ a.grantedAt ≤ b.grantedAt := decide_eq_true_iff

theorem isListing_grantsOf (s : Store) (server : Snowflake) :
    s.IsListing server (s.grantsOf server) where
  perm := List.mergeSort_perm _ _
  sorted := by
    have hsorted : (s.grantsOf server).Pairwise fun a b => grantedBefore a b = true := by
      refine List.pairwise_mergeSort (fun a b c hab hbc => ?_) (fun a b => ?_) _
      · rw [grantedBefore_iff] at *
        exact Instant.le_trans hab hbc
      · rw [Bool.or_eq_true, grantedBefore_iff, grantedBefore_iff]
        exact Instant.le_total _ _
    exact hsorted.imp grantedBefore_iff.1

/-- Whatever order the table has its rows in, a listing comes of it, and every listing comes of some
order. -/
theorem isListing_iff_exists_perm {listed : List Grant} : s.IsListing server listed ↔
    ∃ rows, rows.Perm s.grants ∧ ({ s with grants := rows } : Store).grantsOf server = listed := by
  constructor
  · rintro ⟨hperm, hsorted⟩
    have hserver : ∀ g ∈ listed, decide (g.server = server) = true := fun g hg =>
      (List.mem_filter.1 (hperm.subset hg)).2
    refine ⟨listed ++ s.grants.filter fun g => !decide (g.server = server), ?_, ?_⟩
    · exact (hperm.append_right _).trans (List.filter_append_perm _ _)
    · have hothers : ∀ g ∈ s.grants.filter fun g => !decide (g.server = server),
          ¬decide (g.server = server) = true := fun g hg => by
        simpa using (List.mem_filter.1 hg).2
      have hrows : ({ s with
          grants := listed ++ s.grants.filter fun g => !decide (g.server = server) } :
            Store).grants.filter (·.server = server) = listed := by
        rw [List.filter_append, List.filter_eq_self.2 hserver, List.filter_eq_nil_iff.2 hothers,
          List.append_nil]
      rw [grantsOf, hrows]
      exact List.mergeSort_of_pairwise (hsorted.imp grantedBefore_iff.2)
  · rintro ⟨rows, hperm, rfl⟩
    obtain ⟨hrows, hsorted⟩ := isListing_grantsOf { s with grants := rows } server
    exact ⟨hrows.trans (hperm.filter _), hsorted⟩

section
variable {listed : List Grant}

theorem IsListing.mem_iff (h : s.IsListing server listed) {g : Grant} :
    g ∈ listed ↔ g ∈ s.grants ∧ g.server = server := by
  rw [h.perm.mem_iff, List.mem_filter, decide_eq_true_eq]

theorem IsListing.nodup (h : s.IsListing server listed)
    (hkeys : (s.grants.map Grant.key).Nodup) : (listed.map Grant.key).Nodup := by
  rw [(h.perm.map _).nodup_iff]
  exact hkeys.sublist (List.filter_sublist.map _)

end

end Steward.Store
