import Steward.Proofs.Text.Replace
import Steward.Secret

/-!
# What redacting leaves of a secret

A secret is gone from every redacted text unless the mark can make up a part of it: the mark stands
between what was left and right of the secret, and a secret that starts or ends with a star, or has
the mark in it, may be put together again there.

* `BlendsIn`: the secrets of which the mark can make up a part.
* `redacted_iff`: which secrets are gone from all redacted texts, and what is left of a text.
* `mark_completes`: a secret that is shown by its own redaction.
-/

namespace Steward.Secret

/-- The secret starts or ends with a star, or has the mark in it. -/
def BlendsIn (s : Secret) : Prop :=
  s.value.toList.head? = some '*' ∨ s.value.toList.getLast? = some '*' ∨
    mark.toList <:+: s.value.toList

instance (s : Secret) : Decidable s.BlendsIn := inferInstanceAs (Decidable (_ ∨ _ ∨ _))

variable {s : Secret}

@[simp] theorem toList_redact (s : Secret) (text : String) :
    (s.redact text).toList = Text.replaceAll s.value.toList mark.toList text.toList :=
  String.toList_ofList

theorem eq_star_of_mem_mark {c : Char} (h : c ∈ mark.toList) : c = '*' := by
  simpa [mark] using h

/-- The mark makes up no part of a secret that does not blend in. -/
theorem apart_of_not_blendsIn (h : ¬ s.BlendsIn) : Text.Apart s.value.toList mark.toList := by
  obtain ⟨hhead, hlast, hinside⟩ : _ ∧ _ ∧ _ := by simpa only [BlendsIn, not_or] using h
  refine ⟨fun c hc => ?_, fun c hc => ?_, hinside⟩
  · rw [eq_star_of_mem_mark hc]
    exact hhead
  · rw [eq_star_of_mem_mark hc]
    exact hlast

/-- A secret that blends in is shown by the redaction of some text. -/
theorem exists_shown_of_blendsIn (h : s.BlendsIn) :
    ∃ text, s.value.toList <:+: Text.replaceAll s.value.toList mark.toList text := by
  by_cases hhead : s.value.toList.head? = some '*'
  · obtain ⟨w, hw⟩ := List.head?_eq_some_iff.1 hhead
    rw [hw]
    exact ⟨_, Text.infix_replaceAll_of_head (by decide) w⟩
  · rcases h with h | hlast | hinside
    · exact absurd h hhead
    · obtain ⟨w, hw⟩ := List.getLast?_eq_some_iff.1 hlast
      rw [hw] at hhead ⊢
      refine ⟨_, Text.infix_replaceAll_of_getLast (by decide) fun hw' => hhead ?_⟩
      rw [List.head?_append, hw', Option.some_or]
    · exact Text.infix_replaceAll_of_inside (by decide) hinside

/-- A secret is in no redacted text at all exactly where it does not blend in. A text without it is
returned as it is, and of any other text the pieces between the occurrences of the secret, taken
from the left and without overlap, stay in order, with the mark between them. -/
theorem redacted_iff (h : s.isEmpty = false) :
    ((∀ text, ¬ s.value.toList <:+: (s.redact text).toList) ↔ ¬ s.BlendsIn) ∧
    (∀ text, ¬ s.value.toList <:+: text.toList → s.redact text = text) ∧
    ∀ text, ∃ pieces, Text.Pieces s.value.toList text.toList pieces ∧
      text.toList = s.value.toList.intercalate pieces ∧
      (s.redact text).toList = mark.toList.intercalate pieces := by
  have hne : s.value.toList ≠ [] := by simpa [isEmpty] using h
  refine ⟨⟨fun hgone hblends => ?_, fun hnot text => ?_⟩, fun text hfree => ?_, fun text => ?_⟩
  · obtain ⟨text, hshown⟩ := exists_shown_of_blendsIn hblends
    refine hgone (String.ofList text) ?_
    rwa [toList_redact, String.toList_ofList]
  · rw [toList_redact]
    exact (apart_of_not_blendsIn hnot).not_infix_replaceAll hne text.toList
  · rw [← String.toList_inj, toList_redact]
    exact Text.replaceAll_of_free _ hfree
  · obtain ⟨pieces, hpieces⟩ := Text.exists_pieces hne text.toList
    refine ⟨pieces, hpieces, hpieces.text_eq, ?_⟩
    rw [toList_redact]
    exact hpieces.replaceAll_eq _ hne

/-- A secret with stars in it that does not blend in. -/
theorem redacted_iff_inner : (⟨"a*b**c"⟩ : Secret).isEmpty = false ∧
    (∀ text, ¬ "a*b**c".toList <:+: ((⟨"a*b**c"⟩ : Secret).redact text).toList) ∧
    (⟨"a*b**c"⟩ : Secret).redact "a*b*c" = "a*b*c" := by
  have hne : (⟨"a*b**c"⟩ : Secret).isEmpty = false := by decide
  obtain ⟨hgone, hfree, -⟩ := redacted_iff hne
  exact ⟨hne, hgone.2 (by decide), hfree _ (by decide)⟩

/-- The mark completes a secret that ends with a star where what stands before the star in it stands
before it in the text. -/
theorem mark_completes : (∃ c ∈ "a*".toList, c ≠ '*') ∧ (⟨"a*"⟩ : Secret).redact "aa*" = "a***" ∧
    "a*".toList <:+: ((⟨"a*"⟩ : Secret).redact "aa*").toList :=
  ⟨⟨'a', by decide, by decide⟩, by decide, by decide⟩

end Steward.Secret
