import Steward.Proofs.Lint.Tree

/-!
# A walk is a traversal

The walk of a program dispatches every node below the root twice, once before and once after all
that is below the node, and has the handlers see the nodes above. Siblings come in the order of the
source, those without range last, but for one thing: a node that starts at the last offset there is
counts as one without range.

* `Walk.Traverses`: what it is for a walk to go through all below a root.
* `walk_traverses`: the walk of a program does.
* `Linter.exists_program_of_lintText`: what is linted of a text is always such a program.
* `last_offset_not_first`: a node at the last offset comes after one without range.
-/

namespace Steward.Lint

/-! ## The walk -/

/-- The events of a walk, in order. -/
def Walk.events (w : Walk) : List (String × Node) := w.visits.reverse.map Visit.event

/-- A walk goes through all below a root. -/
structure Walk.Traverses (w : Walk) (root : Node) : Prop where
  nodup : w.events.Nodup
  mem_iff : ∀ e, e ∈ w.events ↔ ∃ n, root.Reaches n ∧ (e = n.entry ∨ e = n.leaving)
  within : ∀ n, root.Reaches n → [n.entry, n.leaving].Sublist w.events
  around : ∀ m n, root.Reaches m → m.IsAbove n →
    [m.entry, n.entry, n.leaving, m.leaving].Sublist w.events
  /-- Siblings come in the order of the source, but for one that starts at the last offset beside
  one without range. -/
  siblings : ∀ p a b, root.Reaches p → p.HasChild a → p.HasChild b → a.Precedes b →
    (b.range? = none → ∀ start finish, a.range? = some (start, finish) →
      start < Word.count64 - 1) → [a.leaving, b.entry].Sublist w.events
  lineage : ∀ v ∈ w.visits, root.Lineage v.node v.ancestors
  ancestors_iff : ∀ v ∈ w.visits, ∀ m, m ∈ v.ancestors ↔ root.Reaches m ∧ m.IsAbove v.node
  left : w.context.ancestors = []

theorem exists_program {document : Json} (h : nodeType? document = some "Program") :
    ∃ t, Linter.program? document = some t ∧ Tree.ofJson? [] document = some t ∧
      t.node = ⟨document, []⟩ := by
  have hmap : (Tree.ofJson? [] document).map Tree.node = some ⟨document, []⟩ := by
    rw [Tree.map_node_ofJson?, Node.ofJson?, h]
    rfl
  obtain ⟨t, ht, hnode⟩ := Option.map_eq_some_iff.1 hmap
  refine ⟨t, ?_, ht, hnode⟩
  rw [Linter.program?, ht, Option.filter_some, if_pos]
  rw [hnode, Node.type, h]
  rfl

theorem nodeType?_of_program? {document : Json} {t : Tree} (h : Linter.program? document = some t) :
    nodeType? document = some "Program" := by
  obtain ⟨ht, htype⟩ := Option.filter_eq_some_iff.1 h
  have hnode : Node.ofJson? [] document = some t.node := by
    rw [← Tree.map_node_ofJson?, ht]
    rfl
  obtain ⟨type, hsome, hn⟩ := Option.map_eq_some_iff.1 hnode
  rw [decide_eq_true_eq, ← hn, Node.type, hsome] at htype
  exact hsome.trans (congrArg some htype)

/-- A text that is linted, and not passed over, holds a program, and the fields of its objects are
in the order of their names. -/
theorem Linter.exists_program_of_lintText {l : Linter} {file : File} {text : String}
    {found : List Diagnostic} (hheeded : l.config.ignores file.name = false)
    (h : l.lintText file (Json.readWhole? text) = .ok found) :
    ∃ document, Json.readWhole? text = some document ∧ document.ordered = true ∧
      nodeType? document = some "Program" ∧ l.lint file document = .ok found := by
  cases hread : Json.readWhole? text with
  | none =>
    rw [hread, lintText, hheeded, if_neg Bool.false_ne_true] at h
    cases h
  | some document =>
    rw [hread, lintText, hheeded, if_neg Bool.false_ne_true] at h
    have hlint := h
    rw [lint, hheeded, if_neg Bool.false_ne_true] at hlint
    cases hprogram : program? document with
    | none =>
      rw [hprogram] at hlint
      cases hlint
    | some t =>
      exact ⟨document, rfl, Json.ordered_of_readWhole? hread, nodeType?_of_program? hprogram, h⟩

theorem Linter.walk_events (l : Linter) (file : File) (t : Tree) :
    (l.walk file t).events = t.events := by
  rw [Walk.events, walk_visits, List.reverse_reverse, Tree.map_event_visits]

/-- What is called at visits: the handlers of each rule for the tag, visit by visit. -/
theorem map_callsFrom (file : File) (rules : List (Rule × Severity)) (before vs : List Visit) :
    (callsFrom file rules before vs).map (fun c => (c.rule, c.visit)) =
      vs.flatMap fun v => rules.flatMap fun r =>
        (r.1.handlersFor file v.tag).map fun _ => (r.1.about, v) := by
  induction vs generalizing before with
  | nil => rfl
  | cons v rest ih =>
    rw [callsFrom, List.map_append, ih, List.flatMap_cons, List.map_flatMap]
    simp only [callsAt, List.map_map]
    rfl

/-- The walk of a program goes through all below its root, and calls at each visit the handlers that
each rule has for its tag. -/
theorem walk_traverses (l : Linter) (file : File) {document : Json}
    (hordered : document.ordered = true) (hprogram : nodeType? document = some "Program") :
    ∃ t, Linter.program? document = some t ∧ (l.walk file t).Traverses ⟨document, []⟩ ∧
      (l.walk file t).calls.toList.map (fun c => (c.rule, c.visit)) =
        (l.walk file t).visits.reverse.flatMap fun v => l.active.flatMap fun r =>
          (r.1.handlersFor file v.tag).map fun _ => (r.1.about, v) := by
  obtain ⟨t, ht, htree, hnode⟩ := exists_program hprogram
  have hsound := Tree.sound_of_ofJson? [] document hordered t htree
  have hlineage : ∀ v ∈ (l.walk file t).visits,
      (⟨document, []⟩ : Node).Lineage v.node v.ancestors := by
    intro v hv
    rw [Linter.walk_visits, List.mem_reverse] at hv
    exact Tree.lineage_of_mem_visits hsound (Node.lineage_nil.2 hnode) hv
  refine ⟨t, ht, ⟨?_, ?_, ?_, ?_, ?_, hlineage, ?_, l.walk_ancestors file t⟩, ?_⟩
  · rw [l.walk_events]
    exact Tree.nodup_events hsound
  · rw [l.walk_events, ← hnode]
    exact fun e => Tree.mem_events_iff hsound
  · rw [l.walk_events, ← hnode]
    exact fun n hn => Tree.sublist_within hsound hn
  · rw [l.walk_events, ← hnode]
    exact fun m n hm hn => Tree.sublist_around hsound hm hn
  · rw [l.walk_events, ← hnode]
    exact fun p a b hp ha hb hab hlast =>
      Tree.sublist_siblings hsound hp ha hb (Node.ahead_of_precedes hab hlast)
  · exact fun v hv m => (hlineage v hv).mem_iff hordered
  · rw [l.walk_calls, l.walk_visits, List.reverse_reverse, map_callsFrom]

/-- A statement of a type and a range. -/
def ranged (type : String) (start finish : Int) : Json :=
  .object [("range", .list [.int start, .int finish]), ("type", .text type)]

/-- A program whose statements are listed backwards. -/
def backwards : Json :=
  .object [("body", .list [ranged "Second" 4 5, ranged "First" 0 1]), ("type", .text "Program")]

theorem walk_traverses_backwards :
    backwards.ordered = true ∧ nodeType? backwards = some "Program" ∧
    ∃ t, Linter.program? backwards = some t ∧
      [("First:exit", ⟨ranged "First" 0 1, [.item "body" 1]⟩),
        ("Second", ⟨ranged "Second" 4 5, [.item "body" 0]⟩)].Sublist
        ((Linter.mk [] {}).walk ⟨"a.ts", ""⟩ t).events := by
  have hordered : backwards.ordered = true := by decide
  have hprogram : nodeType? backwards = some "Program" := by decide
  obtain ⟨t, ht, h, -⟩ := walk_traverses (Linter.mk [] {}) ⟨"a.ts", ""⟩ hordered hprogram
  refine ⟨hordered, hprogram, t, ht, ?_⟩
  have hfirst : (⟨backwards, []⟩ : Node).HasChild ⟨ranged "First" 0 1, [.item "body" 1]⟩ :=
    .item rfl List.mem_cons_self (by decide) rfl rfl
  have hsecond : (⟨backwards, []⟩ : Node).HasChild ⟨ranged "Second" 4 5, [.item "body" 0]⟩ :=
    .item rfl List.mem_cons_self (by decide) rfl rfl
  exact h.siblings _ _ _ .refl hfirst hsecond (.inl (by decide)) nofun

/-! ## The last offset -/

/-- A node without range. -/
def rangeless : Node := ⟨.object [("type", .text "A")], [.field "a"]⟩

/-- A node that starts at the last offset there is. -/
def atLast : Node := ⟨ranged "B" 18446744073709551615 18446744073709551615, [.field "b"]⟩

/-- A program that has both. -/
def lastOffset : Json :=
  .object [("a", rangeless.value), ("b", atLast.value), ("type", .text "Program")]

theorem program?_lastOffset :
    Linter.program? lastOffset =
      some (.mk ⟨lastOffset, []⟩ [.mk rangeless [], .mk atLast []]) := by
  have hfields : Tree.ofFields [] [("a", rangeless.value), ("b", atLast.value),
      ("type", .text "Program")] = [.mk rangeless [], .mk atLast []] := by
    simp [rangeless, atLast, ranged, Tree.ofFields, Tree.ofJson?, Node.plainFields, nodeType?,
      Json.field?, Json.text?, List.lookup_cons]
  -- Both count as starting at the last offset, so that they stay as the fields have them.
  have hsort : ([.mk rangeless [], .mk atLast []] : List Tree).mergeSort
      (fun a b => a.node.rank ≤ b.node.rank) = [.mk rangeless [], .mk atLast []] :=
    List.mergeSort_of_pairwise (by decide)
  rw [Linter.program?, lastOffset, Tree.ofJson?, hfields, hsort]
  rfl

/-- The node at the last offset precedes the one without range, and is visited after it. -/
theorem last_offset_not_first :
    lastOffset.ordered = true ∧ (⟨lastOffset, []⟩ : Node).HasChild atLast ∧
    (⟨lastOffset, []⟩ : Node).HasChild rangeless ∧ atLast.Precedes rangeless ∧
    ∃ t, Linter.program? lastOffset = some t ∧
      ¬[atLast.leaving, rangeless.entry].Sublist
        ((Linter.mk [] {}).walk ⟨"a.ts", ""⟩ t).events := by
  refine ⟨by decide, .field rfl (.tail _ (.head _)) (by decide) rfl,
    .field rfl (.head _) (by decide) rfl, trivial, _, program?_lastOffset, fun h => ?_⟩
  rw [Linter.walk_events] at h
  have htags : ["B:exit", "A"].Sublist ["Program", "A", "A:exit", "B", "B:exit", "Program:exit"] :=
    h.map Prod.fst
  exact absurd htags (by decide)

end Steward.Lint
