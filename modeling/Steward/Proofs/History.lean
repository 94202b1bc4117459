import Mathlib.Data.List.Basic

/-!
# Histories

A history is the list of what has happened, and grows at its end. Much of what is left of it is of
one form: something has happened, and ever since nothing came in between.

* `Since`: that something has happened and something else has held since.
* `since_append_iff`: one more event decides, or leaves it to those before.
-/

namespace Steward

variable {α : Type} {P : List α → α → Prop} {Q : α → Prop} {past : List α} {x : α}

/-- An event has happened of which `P` holds, given what came before it, and `Q` holds of all events
since. -/
def Since (P : List α → α → Prop) (Q : α → Prop) (past : List α) : Prop :=
  ∃ before x after, past = before ++ x :: after ∧ P before x ∧ ∀ y ∈ after, Q y

theorem not_since_nil : ¬Since P Q [] := by
  rintro ⟨before, x, after, h, -⟩
  simp at h

theorem since_append_iff : Since P Q (past ++ [x]) ↔ P past x ∨ Q x ∧ Since P Q past := by
  constructor
  · rintro ⟨before, y, after, h, hy, hsince⟩
    rcases List.eq_nil_or_concat after with rfl | ⟨rest, z, rfl⟩
    · obtain ⟨rfl, hlast⟩ := List.append_inj' h rfl
      obtain rfl := List.singleton_inj.1 hlast
      exact .inl hy
    · have hsplit : past ++ [x] = (before ++ y :: rest) ++ [z] := by simpa using h
      obtain ⟨rfl, hlast⟩ := List.append_inj' hsplit rfl
      obtain rfl := List.singleton_inj.1 hlast
      exact .inr ⟨hsince x (by simp), before, y, rest, rfl, hy, fun u hu => hsince u (by simp [hu])⟩
  · rintro (hx | ⟨hx, before, y, after, rfl, hy, hsince⟩)
    · exact ⟨past, x, [], rfl, hx, by simp⟩
    · refine ⟨before, y, after ++ [x], by simp, hy, fun u hu => ?_⟩
      rcases List.mem_append.1 hu with hu | hu
      · exact hsince u hu
      · rw [List.mem_singleton.1 hu]
        exact hx

end Steward
