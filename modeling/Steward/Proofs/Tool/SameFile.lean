import Steward.Tool.Report

/-!
# Paths below a root

What a path in a report names. The root has no part in it: the comparison below the root gives
nothing that the comparison with the end of the file's path does not give.

* `IsRoot`, `IsInner`: absolute roots, and paths below a root.
* `isSameFile_iff`: when a path names a file.
* `isSameFile_below_iff`: when a path names a file below the root, in terms of the paths as written.
-/

namespace Steward.Tool

open Text

/-! ## Roots and paths below them -/

/-- A path from the root of a file system, or from that of a drive. -/
def IsAbsolute (path : List Char) : Prop :=
  path.head? = some '/' ∨
    ∃ drive rest, Char.isAlpha drive = true ∧ path = drive :: ':' :: '/' :: rest

/-- The root of a project. -/
structure IsRoot (root : String) : Prop where
  absolute : IsAbsolute root.toList
  forward : '\\' ∉ root.toList
  bare : root.toList.getLast? ≠ some '/'

/-- A path of a file below the root of a project. -/
structure IsInner (path : String) : Prop where
  nonempty : path.toList ≠ []
  relative : ¬IsAbsolute path.toList
  forward : '\\' ∉ path.toList
  plain : ∀ segment ∈ splitOn '/' path.toList, segment ≠ ['.'] ∧ segment ≠ ['.', '.']

/-- The file that a path names below a root. -/
def below (root path : String) : String := root ++ "/" ++ path

variable {root root' path reported file r q : String}

theorem toList_below : (below root path).toList = root.toList ++ '/' :: path.toList := by
  simp [below]

/-! ## Paths that are as they should be -/

theorem normalPath_eq_self (hforward : '\\' ∉ path.toList) (hdot : ¬['.', '/'] <+: path.toList) :
    normalPath path = path.toList := by
  have hmap : (path.toList.map fun c => if c = '\\' then '/' else c) = path.toList := by
    refine (List.map_congr_left fun c hc => if_neg ?_).trans (List.map_id _)
    rintro rfl
    exact hforward hc
  have hnone : after? ['.', '/'] path.toList = none := by
    refine Option.eq_none_iff_forall_not_mem.2 fun rest hrest => hdot ?_
    exact ⟨rest, (after?_eq_some_iff.1 hrest).symm⟩
  rw [normalPath, hmap, hnone, Option.getD_none]

theorem normalPath_of_isInner (h : IsInner path) : normalPath path = path.toList := by
  refine normalPath_eq_self h.forward ?_
  rintro ⟨rest, hrest⟩
  have hsplit : splitOn '/' path.toList = ['.'] :: splitOn '/' rest := by
    rw [← hrest]
    have hdot : '/' ∉ ['.'] := by decide
    exact splitOn_append rest hdot
  have hsegment : ['.'] ∈ splitOn '/' path.toList := by
    rw [hsplit]
    exact List.mem_cons_self
  exact (h.plain _ hsegment).1 rfl

theorem IsAbsolute.append {a : List Char} (h : IsAbsolute a) (b : List Char) :
    IsAbsolute (a ++ b) := by
  rcases h with h | ⟨drive, rest, hdrive, rfl⟩
  · refine .inl ?_
    rw [List.head?_append, h]
    rfl
  · exact .inr ⟨drive, rest ++ b, hdrive, rfl⟩

theorem not_dot_of_isAbsolute {a : List Char} (h : IsAbsolute a) : ¬['.', '/'] <+: a := by
  rintro ⟨rest, rfl⟩
  rcases h with h | ⟨drive, s, hdrive, h⟩
  · simp at h
  · simp at h

theorem not_isAbsolute {a : List Char} (hslash : a.head? ≠ some '/') (hcolon : ':' ∉ a) :
    ¬IsAbsolute a := by
  rintro (h | ⟨drive, rest, -, rfl⟩)
  · exact hslash h
  · simp at hcolon

theorem isAbsolute_below (hroot : IsRoot root) : IsAbsolute (below root path).toList := by
  rw [toList_below]
  exact hroot.absolute.append _

theorem normalPath_below (hroot : IsRoot root) (h : IsInner path) :
    normalPath (below root path) = (below root path).toList := by
  refine normalPath_eq_self ?_ (not_dot_of_isAbsolute (isAbsolute_below hroot))
  rw [toList_below]
  simp [hroot.forward, h.forward]

/-! ## The file that a path names -/

theorem isSameFile_iff : isSameFile reported file root = true ↔
    normalPath reported ≠ [] ∧ (normalPath file = normalPath reported ∨
      '/' :: normalPath reported <:+ normalPath file) := by
  have hbelow : normalPath file = dropSlashes (normalPath root) ++ '/' :: normalPath reported →
      '/' :: normalPath reported <:+ normalPath file := by
    intro h
    rw [h]
    exact List.suffix_append _ _
  by_cases hempty : normalPath reported = []
  · simp [isSameFile, hempty]
  · simp only [isSameFile, List.isEmpty_iff, hempty, if_false, Bool.or_eq_true, decide_eq_true_eq,
      endsWith_iff, ne_eq, not_false_eq_true, true_and]
    constructor
    · rintro ((h | h) | h)
      · exact .inl h
      · exact .inr (hbelow h)
      · exact .inr h
    · rintro (h | h)
      · exact .inl (.inl h)
      · exact .inr h

/-- The root has no part in what a path names. -/
theorem isSameFile_root : isSameFile reported file root = isSameFile reported file root' := by
  rw [Bool.eq_iff_iff, isSameFile_iff, isSameFile_iff]

theorem isSameFile_below_iff (hroot : IsRoot root) (hr : IsInner r) (hq : IsInner q) :
    isSameFile r (below root q) root = true ↔ '/' :: r.toList <:+ (below root q).toList := by
  rw [isSameFile_iff, normalPath_of_isInner hr, normalPath_below hroot hq]
  constructor
  · rintro ⟨-, h | h⟩
    · exact absurd (h ▸ isAbsolute_below hroot) hr.relative
    · exact h
  · exact fun h => ⟨hr.nonempty, .inr h⟩

theorem isSameFile_below_self (hroot : IsRoot root) (hr : IsInner r) :
    isSameFile r (below root r) root = true := by
  rw [isSameFile_below_iff hroot hr hr, toList_below]
  exact List.suffix_append _ _

end Steward.Tool
