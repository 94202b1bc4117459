import Mathlib.Data.List.Basic

/-!
# Stable sorting

Sorting keeps the order of what it does not tell apart.

* `filter_mergeSort`: of items that the order does not tell apart, all stay in place.
* `pairwise_mergeSort_of_pairwise`: what comes first in a sorted list is before the rest, or is not
  told apart from it and came first in the list already.
-/

namespace Steward

variable {τ : Type} {le : τ → τ → Bool}

/-- Sorting keeps the order of what is not told apart by it. -/
theorem filter_mergeSort (htrans : ∀ a b c, le a b = true → le b c = true → le a c = true)
    (htotal : ∀ a b, (le a b || le b a) = true) {p : τ → Bool}
    (hp : ∀ a b, p a = true → p b = true → le a b = true) (l : List τ) :
    (l.mergeSort le).filter p = l.filter p := by
  have hsame : (l.filter p).Pairwise fun a b => le a b :=
    List.pairwise_of_forall_mem_list fun a ha b hb =>
      hp a b (List.mem_filter.1 ha).2 (List.mem_filter.1 hb).2
  have hsublist : (l.filter p).Sublist (l.mergeSort le) :=
    List.sublist_mergeSort htrans htotal hsame List.filter_sublist
  have hfilter := hsublist.filter p
  simp only [List.filter_filter, Bool.and_self] at hfilter
  have hlength := ((List.mergeSort_perm l le).filter p).length_eq
  exact (hfilter.eq_of_length hlength.symm).symm

/-- In a sorted list, items that are not told apart stand as they stood before. -/
theorem pairwise_mergeSort_of_pairwise {r : τ → τ → Prop} {l : List τ}
    (htrans : ∀ a b c, le a b = true → le b c = true → le a c = true)
    (htotal : ∀ a b, (le a b || le b a) = true) (h : l.Pairwise r) :
    (l.mergeSort le).Pairwise fun a b => le a b = true ∧ (le b a = true → r a b) := by
  rw [List.pairwise_iff_forall_sublist]
  intro a b hab
  have hle := List.pairwise_iff_forall_sublist.1 (List.pairwise_mergeSort htrans htotal l) hab
  refine ⟨hle, fun hge => ?_⟩
  -- Both are among the items that are not told apart from the first.
  have hrefl : le a a = true := htrans a b a hle hge
  have hfilter := hab.filter fun x => le a x && le x a
  rw [filter_mergeSort htrans htotal fun x y hx hy => ?_] at hfilter
  · have hboth : [a, b].filter (fun x => le a x && le x a) = [a, b] := by simp [hrefl, hle, hge]
    rw [hboth] at hfilter
    exact List.pairwise_iff_forall_sublist.1 h (hfilter.trans List.filter_sublist)
  · rw [Bool.and_eq_true] at hx hy
    exact htrans x a y hx.2 hy.1

end Steward
