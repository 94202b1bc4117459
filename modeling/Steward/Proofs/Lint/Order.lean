import Steward.Lint.Diagnostic
import Steward.Proofs.Sorting

/-!
# The order of findings

Findings are listed by line and column. A sorted list is settled by what it holds at each place and
in which order; sorting keeps the latter, so that sorting and leaving out findings may be done in
either order.

* `Diagnostic.filter_isAt_mergeSort`: sorting keeps the order of findings at one place.
* `Diagnostic.eq_of_pairwise`: sorted lists that agree at every place are the same.
* `Diagnostic.mergeSort_filter`: findings may be left out before or after sorting.
-/

namespace Steward.Lint

namespace Diagnostic

variable {a b c : Diagnostic} {l l' : List Diagnostic} {line column : UInt32}

/-- Whether a finding is at a place. -/
def isAt (line column : UInt32) (d : Diagnostic) : Bool := d.line = line && d.column = column

theorem isAt_iff : a.isAt line column = true ↔ a.line = line ∧ a.column = column := by
  simp [isAt]

theorem isAt_self (a : Diagnostic) : a.isAt a.line a.column = true := isAt_iff.2 ⟨rfl, rfl⟩

theorem before_iff : a.before b = true ↔
    a.line.toNat < b.line.toNat ∨
      a.line.toNat = b.line.toNat ∧ a.column.toNat ≤ b.column.toNat := by
  simp [before, UInt32.lt_iff_toNat_lt, UInt32.le_iff_toNat_le, ← UInt32.toNat_inj]

theorem before_refl (a : Diagnostic) : a.before a = true := before_iff.2 (.inr ⟨rfl, Nat.le_refl _⟩)

theorem before_trans (a b c : Diagnostic) (h : a.before b = true) (h' : b.before c = true) :
    a.before c = true := by
  rw [before_iff] at *
  omega

theorem before_total (a b : Diagnostic) : (a.before b || b.before a) = true := by
  rw [Bool.or_eq_true, before_iff, before_iff]
  omega

theorem isAt_of_before_before (h : a.before b = true) (h' : b.before a = true) :
    b.isAt a.line a.column = true := by
  rw [before_iff] at *
  rw [isAt_iff, ← UInt32.toNat_inj, ← UInt32.toNat_inj]
  omega

theorem before_of_isAt (h : a.isAt line column = true) (h' : b.isAt line column = true) :
    a.before b = true := by
  rw [isAt_iff] at h h'
  rw [before_iff, h.1, h.2, h'.1, h'.2]
  omega

/-- The head of a sorted list is before all it holds. -/
theorem before_of_mem_cons (h : (a :: l).Pairwise fun a b => a.before b) (hb : b ∈ a :: l) :
    a.before b = true := by
  rcases List.mem_cons.1 hb with rfl | hb
  · exact before_refl b
  · exact List.rel_of_pairwise_cons h hb

theorem mem_of_filter_isAt_eq (h : ∀ line column, l.filter (isAt line column) =
    l'.filter (isAt line column)) (ha : a ∈ l) : a ∈ l' := by
  have hfilter : a ∈ l.filter (isAt a.line a.column) := List.mem_filter.2 ⟨ha, isAt_self a⟩
  rw [h] at hfilter
  exact (List.mem_filter.1 hfilter).1

theorem eq_of_pairwise (hl : l.Pairwise fun a b => a.before b)
    (hl' : l'.Pairwise fun a b => a.before b)
    (h : ∀ line column, l.filter (isAt line column) = l'.filter (isAt line column)) : l = l' := by
  induction l generalizing l' with
  | nil =>
    refine (List.eq_nil_iff_forall_not_mem.2 fun b hb => ?_).symm
    exact List.not_mem_nil (mem_of_filter_isAt_eq (fun line column => (h line column).symm) hb)
  | cons a rest ih =>
    cases l' with
    | nil => exact absurd (mem_of_filter_isAt_eq h List.mem_cons_self) List.not_mem_nil
    | cons b rest' =>
      have hab : a.before b = true := before_of_mem_cons hl
        (mem_of_filter_isAt_eq (fun line column => (h line column).symm) List.mem_cons_self)
      have hba : b.before a = true :=
        before_of_mem_cons hl' (mem_of_filter_isAt_eq h List.mem_cons_self)
      -- Both heads are the first findings at one place.
      have hplace := h a.line a.column
      rw [List.filter_cons_of_pos (isAt_self a),
        List.filter_cons_of_pos (isAt_of_before_before hab hba)] at hplace
      obtain rfl : a = b := (List.cons.inj hplace).1
      rw [ih hl.of_cons hl'.of_cons fun line column => ?_]
      have hplace := h line column
      simp only [List.filter_cons] at hplace
      split at hplace
      · exact (List.cons.inj hplace).2
      · exact hplace

theorem pairwise_mergeSort (l : List Diagnostic) :
    (l.mergeSort before).Pairwise fun a b => a.before b :=
  List.pairwise_mergeSort before_trans before_total l

theorem filter_isAt_mergeSort (line column : UInt32) (l : List Diagnostic) :
    (l.mergeSort before).filter (isAt line column) = l.filter (isAt line column) :=
  filter_mergeSort before_trans before_total (fun _ _ => before_of_isAt) l

theorem mergeSort_filter (p : Diagnostic → Bool) (l : List Diagnostic) :
    (l.filter p).mergeSort before = (l.mergeSort before).filter p := by
  refine eq_of_pairwise (pairwise_mergeSort _) ((pairwise_mergeSort l).filter p)
    fun line column => ?_
  have hcomm (l : List Diagnostic) : (l.filter p).filter (isAt line column) =
      (l.filter (isAt line column)).filter p := by
    simp only [List.filter_filter, Bool.and_comm]
  rw [filter_isAt_mergeSort, hcomm, hcomm, filter_isAt_mergeSort]

end Diagnostic

end Steward.Lint
