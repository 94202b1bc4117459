import Mathlib.Data.List.Nodup
import Mathlib.Logic.Relation
import Steward.Lint.Node
import Steward.Proofs.Json.Ordered

/-!
# The children of a node

The nodes in the fields of a node, in the order in which a walk comes to them. A node without range
is put where a range from the last offset on would put it.

* `Node.HasChild`: one node stands in a field of another, as itself or in a list.
* `Node.mem_children`, `Node.pairwise_children`: the children are those nodes, each once, by offset
  and then by field and place in the list.
* `Node.Precedes`: the order that the source gives; `Node.ahead_of_precedes`: it is kept, but
  for a node that starts at the last offset beside one without range.
-/

namespace Steward.Lint

/-! ## Steps -/

namespace Step

/-- The field that a step goes through. -/
def name : Step → String
  | field name | item name _ => name

/-- The place in the list in the field; the first where there is no list. -/
def index : Step → Nat
  | field _ => 0
  | item _ index => index

/-- By field, and in a list by place. -/
def Before (a b : Step) : Prop := a.name < b.name ∨ a.name = b.name ∧ a.index < b.index

theorem Before.trans {a b c : Step} (h : a.Before b) (h' : b.Before c) : a.Before c := by
  rcases h with h | ⟨h, hi⟩ <;> rcases h' with h' | ⟨h', hi'⟩
  · exact .inl (h.trans h')
  · exact .inl (h' ▸ h)
  · exact .inl (h ▸ h')
  · exact .inr ⟨h.trans h', hi.trans hi'⟩

theorem Before.ne {a b : Step} (h : a.Before b) : a ≠ b := by
  rintro rfl
  rcases h with h | ⟨-, h⟩
  · exact lt_irrefl _ h
  · exact lt_irrefl _ h

end Step

namespace Node

/-- A child stands in a field of its parent, as itself or in a list. -/
inductive HasChild (p : Node) : Node → Prop where
  | field {fields : List (String × Json)} {name : String} {v : Json}
      (hvalue : p.value = .object fields) (hfield : (name, v) ∈ fields) (hname : name ∉ plainFields)
      (hnode : (nodeType? v).isSome = true) : HasChild p ⟨v, .field name :: p.way⟩
  | item {fields : List (String × Json)} {name : String} {items : List Json} {index : Nat}
      {v : Json} (hvalue : p.value = .object fields) (hfield : (name, .list items) ∈ fields)
      (hname : name ∉ plainFields) (hitem : items[index]? = some v)
      (hnode : (nodeType? v).isSome = true) : HasChild p ⟨v, .item name index :: p.way⟩

theorem hasChild_of_child? {p c : Node} {name : String} (hname : name ∉ plainFields)
    (h : p.child? name = some c) : p.HasChild c := by
  obtain ⟨v, hv, hc⟩ := Option.bind_eq_some_iff.1 h
  obtain ⟨type, htype, rfl⟩ := Option.map_eq_some_iff.1 hc
  cases hvalue : p.value with
  | object fields =>
    rw [hvalue] at hv
    obtain ⟨before, after, hfields, -⟩ := List.lookup_eq_some_iff.1 hv
    refine .field hvalue ?_ hname (by rw [htype]; rfl)
    rw [hfields]
    exact List.mem_append_right _ List.mem_cons_self
  | _ =>
    rw [hvalue] at hv
    cases hv

/-- The step to a node from its parent; for a root, the first there is. -/
def step (n : Node) : Step := n.way.headD (.field "")

theorem HasChild.way_eq {p c : Node} (h : p.HasChild c) : c.way = c.step :: p.way := by
  cases h <;> rfl

/-! ## The nodes in the fields -/

section

variable {way : List Step} {name : String} {fields : List (String × Json)} {v : Json} {n : Node}

theorem mem_ofJson? : n ∈ (ofJson? way v).toList ↔ (nodeType? v).isSome = true ∧ n = ⟨v, way⟩ := by
  unfold ofJson?
  cases nodeType? v <;> simp

theorem mem_ofItems {items : List Json} {start : Nat} :
    n ∈ ofItems way name start items ↔ ∃ index v, items[index]? = some v ∧
      (nodeType? v).isSome = true ∧ n = ⟨v, .item name (start + index) :: way⟩ := by
  induction items generalizing start with
  | nil => simp [ofItems]
  | cons v rest ih =>
    rw [ofItems, List.mem_append, mem_ofJson?, ih]
    constructor
    · rintro (⟨hnode, rfl⟩ | ⟨index, w, hw, hnode, rfl⟩)
      · exact ⟨0, v, rfl, hnode, rfl⟩
      · exact ⟨index + 1, w, hw, hnode, by rw [Nat.add_assoc, Nat.add_comm 1]⟩
    · rintro ⟨index, w, hw, hnode, rfl⟩
      cases index with
      | zero =>
        obtain rfl : v = w := by simpa using hw
        exact .inl ⟨hnode, rfl⟩
      | succ index =>
        exact .inr ⟨index, w, by simpa using hw, hnode, by rw [Nat.add_assoc, Nat.add_comm 1]⟩

theorem mem_inField : n ∈ inField way name v ↔ name ∉ plainFields ∧
    (((nodeType? v).isSome = true ∧ n = ⟨v, .field name :: way⟩) ∨
      ∃ items index w, v = .list items ∧ items[index]? = some w ∧ (nodeType? w).isSome = true ∧
        n = ⟨w, .item name index :: way⟩) := by
  unfold inField
  by_cases hname : name ∈ plainFields
  · simp [hname]
  · rw [if_neg (by simpa using hname)]
    split
    · next items =>
      simp only [mem_ofItems, Nat.zero_add]
      constructor
      · rintro ⟨index, w, hw, hnode, rfl⟩
        exact ⟨hname, .inr ⟨items, index, w, rfl, hw, hnode, rfl⟩⟩
      · rintro ⟨-, ⟨hnode, -⟩ | ⟨_, index, w, h, hw, hnode, rfl⟩⟩
        · cases hnode
        · cases h
          exact ⟨index, w, hw, hnode, rfl⟩
    · next hlist =>
      rw [mem_ofJson?]
      constructor
      · rintro ⟨hnode, rfl⟩
        exact ⟨hname, .inl ⟨hnode, rfl⟩⟩
      · rintro ⟨-, h | ⟨items, -, -, h, -⟩⟩
        · exact h
        · exact absurd h (hlist items)

theorem hasChild_iff {p c : Node} :
    p.HasChild c ↔ ∃ fields, p.value = .object fields ∧ c ∈ inFields p.way fields := by
  constructor
  · rintro (⟨hvalue, hfield, hname, hnode⟩ | ⟨hvalue, hfield, hname, hitem, hnode⟩)
    · exact ⟨_, hvalue, List.mem_flatMap.2 ⟨_, hfield, mem_inField.2 ⟨hname, .inl ⟨hnode, rfl⟩⟩⟩⟩
    · exact ⟨_, hvalue, List.mem_flatMap.2 ⟨_, hfield,
        mem_inField.2 ⟨hname, .inr ⟨_, _, _, rfl, hitem, hnode, rfl⟩⟩⟩⟩
  · rintro ⟨fields, hvalue, hc⟩
    obtain ⟨⟨name, v⟩, hfield, hc⟩ := List.mem_flatMap.1 hc
    obtain ⟨hname, ⟨hnode, rfl⟩ | ⟨items, index, w, rfl, hitem, hnode, rfl⟩⟩ := mem_inField.1 hc
    · exact .field hvalue hfield hname hnode
    · exact .item hvalue hfield hname hitem hnode

theorem mem_children {p c : Node} : c ∈ p.children ↔ p.HasChild c := by
  rw [hasChild_iff]
  unfold children
  split
  · next fields hvalue => simp [hvalue]
  · next hvalue =>
    simp only [List.not_mem_nil, false_iff, not_exists, not_and]
    exact fun fields h => absurd h (hvalue fields)

/-! ## Their order -/

theorem name_of_mem_inField (h : n ∈ inField way name v) : n.step.name = name := by
  obtain ⟨-, ⟨-, rfl⟩ | ⟨items, index, w, -, -, -, rfl⟩⟩ := mem_inField.1 h <;> rfl

theorem pairwise_ofItems (items : List Json) (start : Nat) :
    (ofItems way name start items).Pairwise fun a b => a.step.Before b.step := by
  induction items generalizing start with
  | nil => exact .nil
  | cons v rest ih =>
    rw [ofItems, List.pairwise_append]
    refine ⟨?_, ih (start + 1), fun a ha b hb => ?_⟩
    · cases ofJson? (.item name start :: way) v <;> simp
    · obtain ⟨-, rfl⟩ := mem_ofJson?.1 ha
      obtain ⟨index, w, -, -, rfl⟩ := mem_ofItems.1 hb
      exact .inr ⟨rfl, Nat.lt_of_lt_of_le (Nat.lt_succ_self start) (Nat.le_add_right _ _)⟩

theorem pairwise_inFields (h : (fields.map (·.1)).Pairwise (· < ·)) :
    (inFields way fields).Pairwise fun a b => a.step.Before b.step := by
  rw [inFields, List.pairwise_flatMap]
  refine ⟨fun field _ => ?_, (List.pairwise_map.1 h).imp fun hlt a ha b hb => .inl ?_⟩
  · obtain ⟨name, v⟩ := field
    show (inField way name v).Pairwise _
    unfold inField
    split
    · exact .nil
    · split
      · exact pairwise_ofItems _ _
      · cases ofJson? (.field name :: way) v <;> simp
  · rwa [name_of_mem_inField ha, name_of_mem_inField hb]

end

/-- The order of siblings: by offset, and at one offset by field and place. -/
def Ahead (a b : Node) : Prop := a.rank < b.rank ∨ a.rank = b.rank ∧ a.step.Before b.step

theorem Ahead.not_ahead {a b : Node} (h : a.Ahead b) : ¬b.Ahead a := by
  rintro (h' | ⟨h', hstep'⟩) <;> rcases h with h | ⟨h, hstep⟩
  · omega
  · omega
  · omega
  · exact (hstep.trans hstep').ne rfl

theorem pairwise_mergeSort_rank {ns : List Node}
    (h : ns.Pairwise fun a b => a.step.Before b.step) :
    (ns.mergeSort fun a b => a.rank ≤ b.rank).Pairwise Ahead := by
  have htrans (a b c : Node) (hab : decide (a.rank ≤ b.rank) = true)
      (hbc : decide (b.rank ≤ c.rank) = true) : decide (a.rank ≤ c.rank) = true := by
    rw [decide_eq_true_eq] at *
    omega
  have htotal (a b : Node) : (decide (a.rank ≤ b.rank) || decide (b.rank ≤ a.rank)) = true := by
    rw [Bool.or_eq_true, decide_eq_true_eq, decide_eq_true_eq]
    omega
  induction ns with
  | nil => rw [List.mergeSort_nil]; exact .nil
  | cons n rest ih =>
    -- The head goes behind those of smaller rank, and before all others.
    obtain ⟨before, behind, hsort, hrest, hless⟩ := List.mergeSort_cons htrans htotal n rest
    have hbehind : ∀ a ∈ behind, n.Ahead a := by
      intro a ha
      have hmem : a ∈ rest.mergeSort fun a b => decide (a.rank ≤ b.rank) := by
        rw [hrest]
        exact List.mem_append_right _ ha
      have hstep := List.rel_of_pairwise_cons h (List.mem_mergeSort.1 hmem)
      have hsorted := List.pairwise_mergeSort htrans htotal (n :: rest)
      rw [hsort, List.pairwise_append, List.pairwise_cons] at hsorted
      rcases Nat.lt_or_eq_of_le (of_decide_eq_true (hsorted.2.1.1 a ha)) with hlt | heq
      · exact .inl hlt
      · exact .inr ⟨heq, hstep⟩
    have hbefore : ∀ a ∈ before, a.Ahead n := fun a ha => .inl (by simpa using hless a ha)
    have ih := ih h.of_cons
    rw [hrest, List.pairwise_append] at ih
    rw [hsort, List.pairwise_append]
    refine ⟨ih.1, List.pairwise_cons.2 ⟨hbehind, ih.2.1⟩, fun a ha b hb => ?_⟩
    rcases List.mem_cons.1 hb with rfl | hb
    · exact hbefore a ha
    · exact ih.2.2 a ha b hb

theorem pairwise_children {n : Node} (h : n.value.ordered = true) : n.children.Pairwise Ahead := by
  unfold children
  split
  · next fields hvalue =>
    rw [hvalue, Json.ordered_object_iff] at h
    exact pairwise_mergeSort_rank (pairwise_inFields h.1)
  · exact .nil

/-- No two children of a node stand at the same place. -/
theorem nodup_children {n : Node} (h : n.value.ordered = true) :
    (n.children.map (·.way)).Nodup := by
  unfold children
  split
  · next fields hvalue =>
    rw [hvalue, Json.ordered_object_iff] at h
    rw [((List.mergeSort_perm _ _).map _).nodup_iff]
    refine List.pairwise_map.2 ((pairwise_inFields h.1).imp fun hstep hway => hstep.ne ?_)
    rw [step, step, hway]
  · exact .nil

/-- The order that the source gives to siblings: by offset, those without range last, and otherwise
by field and place. -/
def Precedes (a b : Node) : Prop :=
  match a.range?, b.range? with
  | some (start, _), some (start', _) => start < start' ∨ start = start' ∧ a.step.Before b.step
  | some _, none => True
  | none, some _ => False
  | none, none => a.step.Before b.step

theorem ahead_of_precedes {a b : Node} (h : a.Precedes b)
    (hlast : b.range? = none → ∀ start finish, a.range? = some (start, finish) →
      start < Word.count64 - 1) : a.Ahead b := by
  unfold Precedes at h
  unfold Ahead rank
  cases ha : a.range? with
  | none =>
    cases hb : b.range? with
    | none => rw [ha, hb] at h; exact .inr ⟨rfl, h⟩
    | some r => rw [ha, hb] at h; exact h.elim
  | some r =>
    obtain ⟨start, finish⟩ := r
    cases hb : b.range? with
    | none => exact .inl (hlast hb start finish ha)
    | some r => rw [ha, hb] at h; exact h

/-! ## Ordered documents -/

theorem HasChild.ordered {p c : Node} (h : p.HasChild c) (hp : p.value.ordered = true) :
    c.value.ordered = true := by
  cases h with
  | field hvalue hfield =>
    rw [hvalue, Json.ordered_object_iff] at hp
    exact hp.2 _ hfield
  | item hvalue hfield _ hitem =>
    rw [hvalue, Json.ordered_object_iff] at hp
    have hitems := hp.2 _ hfield
    rw [Json.ordered, Json.orderedItems_iff] at hitems
    exact hitems _ (List.mem_of_getElem? hitem)

/-- A child is settled by its place. -/
theorem HasChild.eq_of_way {p a b : Node} (ha : p.HasChild a) (hb : p.HasChild b)
    (hp : p.value.ordered = true) (hway : a.way = b.way) : a = b :=
  List.inj_on_of_nodup_map (nodup_children hp) (mem_children.2 ha) (mem_children.2 hb) hway

end Node

end Steward.Lint
