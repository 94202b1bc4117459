import Mathlib.Data.String.Basic
import Steward.Json.Reader

/-!
# Ordered documents

A document that is held whole has the fields of every object in the order of their names, each name
once.

* `Json.ordered`: whether a document is in that order.
* `Json.ordered_sorted`, `Json.ordered_of_readWhole?`: what is sorted, or read whole, is.
-/

namespace Steward.Json

mutual

/-- Whether the fields of every object are in the order of their names, each name once. -/
def ordered : Json → Bool
  | list items => orderedItems items
  | object fields => decide ((fields.map (·.1)).Pairwise (· < ·)) && orderedFields fields
  | _ => true

/-- Whether all items are ordered. -/
def orderedItems : List Json → Bool
  | [] => true
  | v :: rest => ordered v && orderedItems rest

/-- Whether the values of all fields are ordered. -/
def orderedFields : List (String × Json) → Bool
  | [] => true
  | (_, v) :: rest => ordered v && orderedFields rest

end

theorem orderedItems_iff {items : List Json} :
    orderedItems items = true ↔ ∀ v ∈ items, v.ordered = true := by
  induction items with
  | nil => simp [orderedItems]
  | cons v rest ih => simp [orderedItems, ih]

theorem orderedFields_iff {fields : List (String × Json)} :
    orderedFields fields = true ↔ ∀ field ∈ fields, field.2.ordered = true := by
  induction fields with
  | nil => simp [orderedFields]
  | cons field rest ih => simp [orderedFields, ih]

theorem ordered_object_iff {fields : List (String × Json)} :
    (object fields).ordered = true ↔
      (fields.map (·.1)).Pairwise (· < ·) ∧ ∀ field ∈ fields, field.2.ordered = true := by
  rw [ordered, Bool.and_eq_true, decide_eq_true_eq, orderedFields_iff]

/-! ## Sorting -/

section

variable {fields : List (String × Json)} {name : String} {v : Json}

theorem mem_of_mem_putField {field : String × Json} (h : field ∈ putField fields name v) :
    field = (name, v) ∨ field ∈ fields := by
  induction fields with
  | nil => exact .inl (List.mem_singleton.1 h)
  | cons f rest ih =>
    unfold putField at h
    split at h
    · exact List.mem_cons.1 h
    · split at h
      · exact (List.mem_cons.1 h).imp_right (List.mem_cons_of_mem _)
      · rcases List.mem_cons.1 h with rfl | h
        · exact .inr List.mem_cons_self
        · exact (ih h).imp_right (List.mem_cons_of_mem _)

theorem pairwise_putField (h : (fields.map (·.1)).Pairwise (· < ·)) :
    ((putField fields name v).map (·.1)).Pairwise (· < ·) := by
  induction fields with
  | nil => simp [putField]
  | cons f rest ih =>
    simp only [List.map_cons, List.pairwise_cons, List.forall_mem_map] at h
    unfold putField
    split
    · next hlt =>
      simp only [List.map_cons, List.pairwise_cons, List.forall_mem_cons, List.forall_mem_map]
      exact ⟨⟨hlt, fun field hfield => hlt.trans (h.1 field hfield)⟩, h⟩
    · next hge =>
      split
      · next heq =>
        simp only [List.map_cons, List.pairwise_cons, List.forall_mem_map]
        exact ⟨fun field hfield => heq ▸ h.1 field hfield, h.2⟩
      · next hne =>
        have hlt : f.1 < name := lt_of_le_of_ne (not_lt.1 hge) (Ne.symm hne)
        simp only [List.map_cons, List.pairwise_cons, List.forall_mem_map]
        refine ⟨fun field hfield => ?_, ih h.2⟩
        rcases mem_of_mem_putField hfield with rfl | hfield
        · exact hlt
        · exact h.1 field hfield

theorem ordered_putField (h : (object fields).ordered = true) (hv : v.ordered = true) :
    (object (putField fields name v)).ordered = true := by
  rw [ordered_object_iff] at h ⊢
  refine ⟨pairwise_putField h.1, fun field hfield => ?_⟩
  rcases mem_of_mem_putField hfield with rfl | hfield
  · exact hv
  · exact h.2 field hfield

theorem ordered_foldl_putField {acc : List (String × Json)} (hacc : (object acc).ordered = true)
    (h : ∀ field ∈ fields, field.2.ordered = true) :
    (object (fields.foldl (fun acc (n, v) => putField acc n v) acc)).ordered = true := by
  induction fields generalizing acc with
  | nil => exact hacc
  | cons f rest ih =>
    rw [List.forall_mem_cons] at h
    exact ih (ordered_putField hacc h.1) h.2

end

mutual

theorem ordered_sorted : ∀ v : Json, v.sorted.ordered = true
  | list items => ordered_sortedItems items
  | object fields =>
    ordered_foldl_putField rfl (orderedFields_iff.1 (ordered_sortedFields fields))
  | null | bool _ | int _ | float _ | text _ | unread | cut _ => rfl

theorem ordered_sortedItems : ∀ items : List Json, orderedItems (sortedItems items) = true
  | [] => rfl
  | v :: rest => by
    rw [sortedItems, orderedItems, ordered_sorted v, ordered_sortedItems rest, Bool.and_self]

theorem ordered_sortedFields :
    ∀ fields : List (String × Json), orderedFields (sortedFields fields) = true
  | [] => rfl
  | (n, v) :: rest => by
    rw [sortedFields, orderedFields, ordered_sorted v, ordered_sortedFields rest, Bool.and_self]

end

theorem ordered_of_readWhole? {s : String} {v : Json} (h : readWhole? s = some v) :
    v.ordered = true := by
  unfold readWhole? at h
  split at h
  · next w hread =>
    split at h
    · cases h
      exact ordered_sorted w
    · cases h
  · cases h

end Steward.Json
