import Steward.Lint.Node
import Steward.Proofs.Text.Offset

/-!
# The source of a node

Trees give the ranges of their nodes in UTF-16 units, and the source is cut between its bytes. A
range is of the text that it covers wherever both its ends lie between characters, and of no text
anywhere else.

* `Node.source?_eq_some_iff`: the text of a range, in units of either kind.
* `Node.source_exact`: a text is found at its own range, and nothing else is.
-/

namespace Steward.Lint.Node

open Text

variable {n : Node} {source t : String} {u v : Nat}

theorem source?_eq_some_iff (hrange : n.range? = some (u, v)) :
    n.source? source = some t ↔ ∃ before after, source.toList = before ++ t.toList ++ after ∧
      width units16 before = u ∧ width units16 (before ++ t.toList) = v := by
  simp only [source?, hrange, Option.bind_eq_bind, Option.bind_some, Option.bind_eq_some_iff,
    byteOffset?_eq_some_iff, between?_eq_some_iff units8_pos, Option.pure_def, Option.some.injEq]
  constructor
  · intro h
    obtain ⟨_, ⟨before, after, hs, hu, rfl⟩, _, ⟨before', after', hs', hv, rfl⟩,
      mid, hmid, rfl⟩ := h
    obtain ⟨start, rest, hsource, hstart, hfinish⟩ := hmid
    -- The bytes before each end tell which characters stand before it.
    have hbefore : start ++ (mid ++ rest) = before ++ after := by
      rw [← hs, hsource, List.append_assoc]
    have hbefore' : start ++ mid ++ rest = before' ++ after' := by rw [← hs', hsource]
    obtain ⟨rfl, -⟩ := eq_of_width_eq units8_pos hbefore hstart
    obtain ⟨rfl, -⟩ := eq_of_width_eq units8_pos hbefore' hfinish
    exact ⟨start, rest, by simpa using hsource, hu, by simpa using hv⟩
  · intro h
    obtain ⟨before, after, hs, hu, hv⟩ := h
    have hstart : source.toList = before ++ (t.toList ++ after) := by rw [hs, List.append_assoc]
    exact ⟨_, ⟨before, _, hstart, hu, rfl⟩, _, ⟨_, after, hs, hv, rfl⟩, t.toList,
      ⟨before, after, hs, rfl, rfl⟩, String.ofList_toList⟩

theorem source?_of_parts {a b c : String}
    (hrange : n.range? = some (length16 a, length16 (a ++ b))) :
    n.source? (a ++ b ++ c) = some b :=
  (source?_eq_some_iff hrange).2
    ⟨a.toList, c.toList, by simp, rfl, by rw [← String.toList_append]; rfl⟩

theorem parts_of_source? (hrange : n.range? = some (u, v)) (h : n.source? source = some t) :
    u ≤ v ∧ ∃ a c, source = a ++ t ++ c ∧ length16 a = u ∧ length16 (a ++ t) = v := by
  obtain ⟨before, after, hs, hu, hv⟩ := (source?_eq_some_iff hrange).1 h
  have hle : u ≤ v := by
    rw [width_append] at hv
    omega
  refine ⟨hle, String.ofList before, String.ofList after, ?_, ?_, ?_⟩
  · apply String.toList_injective
    simpa using hs
  · simpa [length16] using hu
  · simpa [length16] using hv

theorem source?_eq_none (hrange : n.range? = some (u, v))
    (h : v < u ∨ length16 source < v ∨ Splits source u ∨ Splits source v) :
    n.source? source = none := by
  rw [Option.eq_none_iff_forall_not_mem]
  intro t ht
  obtain ⟨before, after, hs, hu, hv⟩ := (source?_eq_some_iff hrange).1 ht
  have hlength : length16 source = v + width units16 after := by
    rw [length16, hs, width_append, hv]
  rcases h with h | h | h | h
  · have := (parts_of_source? hrange ht).1
    omega
  · omega
  · exact not_splits (hs.trans (List.append_assoc ..)) (hu ▸ h)
  · exact not_splits hs (hv ▸ h)

/-- A text is found by its own range, whatever characters it has and stand around it. What a range
gives stands at this range, so that one that is reversed, too long or cuts a character gives
nothing. The bytes are never cut inside a character. -/
theorem source_exact :
    (∀ (n : Node) (a b c : String), n.range? = some (length16 a, length16 (a ++ b)) →
      n.source? (a ++ b ++ c) = some b) ∧
    (∀ (n : Node) (source t : String) (u v : Nat), n.range? = some (u, v) →
      n.source? source = some t →
      u ≤ v ∧ ∃ a c, source = a ++ t ++ c ∧ length16 a = u ∧ length16 (a ++ t) = v) ∧
    (∀ (n : Node) (source : String) (u v : Nat), n.range? = some (u, v) →
      v < u ∨ length16 source < v ∨ Splits source u ∨ Splits source v →
      n.source? source = none) ∧
    ∀ (source : String) (u k : Nat), byteOffset? u source.toList = some k →
      IsOffset source k :=
  ⟨fun _ _ _ _ => source?_of_parts, fun _ _ _ _ _ => parts_of_source?,
    fun _ _ _ _ => source?_eq_none, fun _ _ _ => isOffset_of_byteOffset?⟩

/-- A literal of the given range. -/
def literalAt (u v : Nat) : Node :=
  ⟨.object [("type", .text "Literal"), ("range", .list [.int u, .int v])], []⟩

theorem source_exact_rocket :
    (literalAt 13 17).source? ("const café = " ++ "'🚀'" ++ " as string;") = some "'🚀'" ∧
      (∃ a c, "const café = '🚀' as string;" = a ++ "'🚀'" ++ c ∧ length16 a = 13) ∧
      (literalAt 15 17).source? "const café = '🚀' as string;" = none ∧
      IsOffset "const café = '🚀' as string;" 14 := by
  have hrange : ∀ u v : Nat, (literalAt u v).range? = some (u, v) := fun u v => by
    simp [literalAt, range?, Json.field?, List.lookup_cons, offset?]
  have hfound := source_exact.1 (literalAt 13 17) "const café = " "'🚀'" " as string;"
    (hrange 13 17)
  obtain ⟨-, a, c, hs, ha, -⟩ := source_exact.2.1 _ _ _ 13 17 (hrange 13 17) hfound
  refine ⟨hfound, ⟨a, c, hs, ha⟩, source_exact.2.2.1 _ _ 15 17 (hrange 15 17) ?_,
    source_exact.2.2.2 _ 13 14 (by decide)⟩
  exact .inr (.inr (.inl ⟨"const café = '".toList, '🚀', "' as string;".toList, by decide⟩))

end Steward.Lint.Node
