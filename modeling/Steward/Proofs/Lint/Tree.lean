import Mathlib.Data.List.Flatten
import Steward.Proofs.Lint.Children
import Steward.Proofs.Lint.Walk

/-!
# Sound trees

The tree of a document has at every node the children that the node has in the document. Its visits
are two for each node below the root, one before and one after those of all that is below the node,
and they show the nodes above.

* `Tree.Sound`, `Tree.sound_of_ofJson?`: the tree of an ordered document is sound.
* `Tree.mem_events_iff`, `Tree.nodup_events`: what is visited, and that it is visited once.
* `Tree.sublist_around`, `Tree.sublist_siblings`: in which order.
* `Tree.lineage_of_mem_visits`, `Node.Lineage.mem_iff`: with which nodes above.
* `Node.Lineage.unique`, `Node.Lineage.head?_eq_some_iff`: there is one way to have them above, with
  the parent first.
-/

namespace Steward.Lint

open Relation

/-! ## Sound trees -/

namespace Tree

theorem map_node_ofJson? (way : List Step) (v : Json) :
    (ofJson? way v).map node = Node.ofJson? way v := by
  unfold ofJson? Node.ofJson?
  split
  · rw [Option.map_map]
    rfl
  · next h =>
    cases v with
    | object fields => exact absurd rfl (h fields)
    | _ => rfl

theorem map_node_ofItems (way : List Step) (name : String) (start : Nat) (items : List Json) :
    (ofItems way name start items).map node = Node.ofItems way name start items := by
  induction items generalizing start with
  | nil => rfl
  | cons v rest ih =>
    rw [ofItems, Node.ofItems, List.map_append, ih, ← Option.toList_map, map_node_ofJson?]

theorem map_node_ofFields (way : List Step) (fields : List (String × Json)) :
    (ofFields way fields).map node = Node.inFields way fields := by
  induction fields with
  | nil => rfl
  | cons field rest ih =>
    obtain ⟨name, v⟩ := field
    rw [Node.inFields, List.flatMap_cons, ← Node.inFields, ← ih]
    cases v <;> simp only [ofFields, Node.inField, List.map_append] <;> split <;>
      simp [map_node_ofItems, ← Option.toList_map, map_node_ofJson?]

/-- A tree whose nodes have the children that their values give, all of them ordered. -/
inductive Sound : Tree → Prop where
  | mk {n : Node} {ts : List Tree} (ordered : n.value.ordered = true)
      (children : ts.map node = n.children) (below : ∀ t ∈ ts, Sound t) : Sound (mk n ts)

theorem map_node_mergeSort (way : List Step) (fields : List (String × Json)) :
    ((ofFields way fields).mergeSort fun a b => a.node.rank ≤ b.node.rank).map node =
      Node.children ⟨.object fields, way⟩ := by
  change _ = (Node.inFields way fields).mergeSort _
  rw [← map_node_ofFields]
  exact List.map_mergeSort fun _ _ _ _ => rfl

mutual

theorem sound_of_ofJson? : ∀ (way : List Step) (v : Json), v.ordered = true →
    ∀ t, ofJson? way v = some t → t.Sound
  | way, .object fields, h, t, ht => by
    rw [ofJson?, Option.map_eq_some_iff] at ht
    obtain ⟨-, -, rfl⟩ := ht
    rw [Json.ordered, Bool.and_eq_true] at h
    exact .mk (by rw [Json.ordered, h.1, h.2, Bool.and_self]) (map_node_mergeSort way fields)
      fun t ht => sound_of_mem_ofFields way fields h.2 t (List.mem_mergeSort.1 ht)
  | _, .null, _, _, ht | _, .bool _, _, _, ht | _, .int _, _, _, ht | _, .float _, _, _, ht
  | _, .text _, _, _, ht | _, .list _, _, _, ht | _, .unread, _, _, ht | _, .cut _, _, _, ht => by
    cases ht

theorem sound_of_mem_ofFields : ∀ (way : List Step) (fields : List (String × Json)),
    Json.orderedFields fields = true → ∀ t ∈ ofFields way fields, t.Sound
  | _, [], _, _, ht => by cases ht
  | way, (name, .list items) :: rest, h, t, ht => by
    rw [Json.orderedFields, Bool.and_eq_true] at h
    rcases List.mem_append.1 ht with ht | ht
    · split at ht
      · cases ht
      · exact sound_of_mem_ofItems way name 0 items h.1 t ht
    · exact sound_of_mem_ofFields way rest h.2 t ht
  | way, (_, .object _) :: rest, h, t, ht | way, (_, .null) :: rest, h, t, ht
  | way, (_, .bool _) :: rest, h, t, ht | way, (_, .int _) :: rest, h, t, ht
  | way, (_, .float _) :: rest, h, t, ht | way, (_, .text _) :: rest, h, t, ht
  | way, (_, .unread) :: rest, h, t, ht | way, (_, .cut _) :: rest, h, t, ht => by
    rw [Json.orderedFields, Bool.and_eq_true] at h
    rcases List.mem_append.1 ht with ht | ht
    · split at ht
      · cases ht
      · exact sound_of_ofJson? _ _ h.1 t (Option.mem_toList.1 ht)
    · exact sound_of_mem_ofFields way rest h.2 t ht

theorem sound_of_mem_ofItems : ∀ (way : List Step) (name : String) (start : Nat)
    (items : List Json), Json.orderedItems items = true →
      ∀ t ∈ ofItems way name start items, t.Sound
  | _, _, _, [], _, _, ht => by cases ht
  | way, name, start, v :: rest, h, t, ht => by
    rw [Json.orderedItems, Bool.and_eq_true] at h
    rcases List.mem_append.1 ht with ht | ht
    · exact sound_of_ofJson? _ v h.1 t (Option.mem_toList.1 ht)
    · exact sound_of_mem_ofItems way name (start + 1) rest h.2 t ht

end

end Tree

/-! ## Nodes below a node -/

namespace Node

/-- The node itself, or one below it. -/
def Reaches (p n : Node) : Prop := ReflTransGen HasChild p n

/-- A node above another. -/
def IsAbove (a n : Node) : Prop := TransGen HasChild a n

variable {p n a c : Node}

theorem Reaches.way_suffix (h : p.Reaches n) : p.way <:+ n.way := by
  induction h with
  | refl => exact List.suffix_refl _
  | tail _ hchild ih =>
    rw [hchild.way_eq]
    exact ih.trans (List.suffix_cons _ _)

theorem HasChild.length_way (h : p.HasChild c) : c.way.length = p.way.length + 1 := by
  rw [h.way_eq, List.length_cons]

/-- No node is below one of its children. -/
theorem HasChild.not_reaches (h : p.HasChild c) : ¬c.Reaches p := by
  intro hback
  have hle := hback.way_suffix.length_le
  rw [h.length_way] at hle
  omega

/-- A node is below one child only. -/
theorem way_eq_of_reaches {p a b n : Node} (ha : p.HasChild a) (hb : p.HasChild b)
    (han : a.Reaches n) (hbn : b.Reaches n) : a.way = b.way := by
  have hlength : a.way.length = b.way.length := by rw [ha.length_way, hb.length_way]
  exact (List.suffix_of_suffix_length_le han.way_suffix hbn.way_suffix hlength.le).eq_of_length
    hlength

/-- The event before the children of a node. -/
def entry (n : Node) : String × Node := (n.type, n)

/-- The event after the children of a node. -/
def leaving (n : Node) : String × Node := (n.type ++ ":exit", n)

theorem entry_ne_leaving (n m : Node) : n.entry ≠ m.leaving := by
  intro h
  obtain ⟨htype, rfl⟩ := Prod.mk.inj h
  have hlength := congrArg String.length htype
  rw [String.length_append] at hlength
  exact absurd hlength (by simp)

end Node

/-! ## The events of a tree -/

/-- The tag and the node of a visit. -/
def Visit.event (v : Visit) : String × Node := (v.tag, v.node)

namespace Tree

mutual

/-- The events of a tree. -/
def events : Tree → List (String × Node)
  | mk n ts => n.entry :: (eventsOf ts ++ [n.leaving])

/-- The events of trees, one tree after the other. -/
def eventsOf : List Tree → List (String × Node)
  | [] => []
  | t :: rest => events t ++ eventsOf rest

end

theorem eventsOf_eq (ts : List Tree) : eventsOf ts = ts.flatMap events := by
  induction ts with
  | nil => rfl
  | cons t rest ih => rw [eventsOf, ih, List.flatMap_cons]

mutual

theorem map_event_visits (ancestors : List Node) :
    ∀ t : Tree, (t.visits ancestors).map Visit.event = t.events
  | mk n ts => by
    rw [visits, events, List.map_cons, List.map_append, map_event_visitsOf (n :: ancestors) ts]
    rfl

theorem map_event_visitsOf (ancestors : List Node) :
    ∀ ts : List Tree, (visitsOf ancestors ts).map Visit.event = eventsOf ts
  | [] => rfl
  | t :: rest => by
    rw [visitsOf, eventsOf, List.map_append, map_event_visits ancestors t,
      map_event_visitsOf ancestors rest]

end

variable {t : Tree} {n m : Node} {ts : List Tree} {e : String × Node}

theorem mem_events_mk :
    e ∈ (mk n ts).events ↔ e = n.entry ∨ (∃ t ∈ ts, e ∈ t.events) ∨ e = n.leaving := by
  rw [events, eventsOf_eq, List.mem_cons, List.mem_append, List.mem_flatMap, List.mem_singleton]

theorem hasChild_iff_of_children (h : ts.map node = n.children) :
    n.HasChild m ↔ ∃ t ∈ ts, t.node = m := by
  rw [← Node.mem_children, ← h, List.mem_map]

/-- There are two events for each node of a sound tree, and no others. -/
theorem mem_events_iff (h : t.Sound) :
    e ∈ t.events ↔ ∃ n, t.node.Reaches n ∧ (e = n.entry ∨ e = n.leaving) := by
  induction h with
  | @mk p ts _ children _ ih =>
    rw [mem_events_mk]
    constructor
    · rintro (rfl | ⟨t, ht, he⟩ | rfl)
      · exact ⟨p, .refl, .inl rfl⟩
      · obtain ⟨n, hn, he⟩ := (ih t ht).1 he
        exact ⟨n, .head ((hasChild_iff_of_children children).2 ⟨t, ht, rfl⟩) hn, he⟩
      · exact ⟨p, .refl, .inr rfl⟩
    · rintro ⟨n, hn, he⟩
      rcases ReflTransGen.cases_head hn with rfl | ⟨c, hchild, hn⟩
      · exact he.elim .inl fun he => .inr (.inr he)
      · obtain ⟨t, ht, rfl⟩ := (hasChild_iff_of_children children).1 hchild
        exact .inr (.inl ⟨t, ht, (ih t ht).2 ⟨n, hn, he⟩⟩)

theorem reaches_of_mem_events (h : t.Sound) (he : e ∈ t.events) : t.node.Reaches e.2 := by
  obtain ⟨n, hn, rfl | rfl⟩ := (mem_events_iff h).1 he <;> exact hn

/-- No event of a sound tree comes twice. -/
theorem nodup_events (h : t.Sound) : t.events.Nodup := by
  induction h with
  | @mk p ts ordered children below ih =>
    -- No node is below one of its children, so all events below are of other nodes.
    have hroot : ∀ e ∈ eventsOf ts, e.2 ≠ p := by
      rintro e he rfl
      rw [eventsOf_eq, List.mem_flatMap] at he
      obtain ⟨t, ht, he⟩ := he
      exact ((hasChild_iff_of_children children).2 ⟨t, ht, rfl⟩).not_reaches
        (reaches_of_mem_events (below t ht) he)
    have hbelow : (eventsOf ts).Nodup := by
      rw [eventsOf_eq, List.nodup_flatMap]
      -- The children differ in their ways, and a common event would give two of them the same.
      have hways := Node.nodup_children ordered
      rw [← children, List.map_map] at hways
      refine ⟨ih, (List.pairwise_map.1 hways).imp_of_mem fun ha hb hne e hea heb => hne ?_⟩
      exact Node.way_eq_of_reaches ((hasChild_iff_of_children children).2 ⟨_, ha, rfl⟩)
        ((hasChild_iff_of_children children).2 ⟨_, hb, rfl⟩)
        (reaches_of_mem_events (below _ ha) hea) (reaches_of_mem_events (below _ hb) heb)
    rw [events, List.nodup_cons, List.nodup_append, List.mem_append, List.mem_singleton]
    refine ⟨?_, hbelow, List.nodup_singleton _, ?_⟩
    · rintro (he | he)
      · exact hroot _ he rfl
      · exact Node.entry_ne_leaving _ _ he
    · rintro e he _ he' rfl
      rw [List.mem_singleton.1 he'] at he
      exact hroot _ he rfl

theorem sublist_events_mk {ts' : List Tree} (h : ts'.Sublist ts) :
    (n.entry :: (ts'.flatMap events ++ [n.leaving])).Sublist (mk n ts).events := by
  rw [events, eventsOf_eq]
  exact ((h.flatMap events).append_right _).cons_cons _

theorem sublist_of_below {es : List (String × Node)} (ht : t ∈ ts) (h : es.Sublist t.events) :
    (n.entry :: (es ++ [n.leaving])).Sublist (mk n ts).events := by
  have hts := sublist_events_mk (n := n) (List.singleton_sublist.2 ht)
  rw [List.flatMap_singleton] at hts
  exact ((h.append_right _).cons_cons _).trans hts

/-- The events of what is below a node are among those of the tree, in order. -/
theorem exists_subtree (h : t.Sound) (hn : t.node.Reaches n) :
    ∃ s : Tree, s.Sound ∧ s.node = n ∧ s.events.Sublist t.events := by
  induction h with
  | @mk p ts ordered children below ih =>
    rcases ReflTransGen.cases_head hn with rfl | ⟨c, hchild, hn⟩
    · exact ⟨_, .mk ordered children below, rfl, .refl _⟩
    · obtain ⟨t, ht, rfl⟩ := (hasChild_iff_of_children children).1 hchild
      obtain ⟨s, hs, hnode, hsub⟩ := ih t ht hn
      refine ⟨s, hs, hnode, List.Sublist.trans ?_ (sublist_of_below ht hsub)⟩
      exact (List.sublist_append_left _ _).cons _

theorem sublist_within (h : t.Sound) (hn : t.node.Reaches n) :
    [n.entry, n.leaving].Sublist t.events := by
  obtain ⟨⟨n, ts⟩, -, rfl, hsub⟩ := exists_subtree h hn
  refine List.Sublist.trans ?_ hsub
  exact sublist_events_mk (List.nil_sublist ts)

/-- All events below a node are between the two of the node. -/
theorem sublist_around (h : t.Sound) (hm : t.node.Reaches m) (hn : m.IsAbove n) :
    [m.entry, n.entry, n.leaving, m.leaving].Sublist t.events := by
  obtain ⟨s, hs, rfl, hsub⟩ := exists_subtree h hm
  refine List.Sublist.trans ?_ hsub
  cases hs with
  | @mk p ts ordered children below =>
    obtain ⟨c, hchild, hn⟩ := TransGen.head'_iff.1 hn
    obtain ⟨t', ht', rfl⟩ := (hasChild_iff_of_children children).1 hchild
    exact sublist_of_below ht' (sublist_within (below t' ht') hn)

theorem pair_sublist_of_pairwise {R : Tree → Tree → Prop} {a b : Tree} (h : ts.Pairwise R)
    (ha : a ∈ ts) (hb : b ∈ ts) (hne : a ≠ b) (hba : ¬R b a) : [a, b].Sublist ts := by
  induction ts with
  | nil => cases ha
  | cons t rest ih =>
    rcases List.mem_cons.1 ha with rfl | ha'
    · rcases List.mem_cons.1 hb with rfl | hb'
      · exact absurd rfl hne
      · exact (List.singleton_sublist.2 hb').cons_cons _
    · rcases List.mem_cons.1 hb with rfl | hb'
      · exact absurd (List.rel_of_pairwise_cons h ha') hba
      · exact (ih h.of_cons ha' hb').cons _

/-- Of two siblings, the one ahead is left before the other is entered. -/
theorem sublist_siblings {p a b : Node} (h : t.Sound) (hp : t.node.Reaches p) (ha : p.HasChild a)
    (hb : p.HasChild b) (hab : a.Ahead b) : [a.leaving, b.entry].Sublist t.events := by
  obtain ⟨s, hs, rfl, hsub⟩ := exists_subtree h hp
  refine List.Sublist.trans ?_ hsub
  cases hs with
  | @mk p ts ordered children below =>
    obtain ⟨ta, hta, rfl⟩ := (hasChild_iff_of_children children).1 ha
    obtain ⟨tb, htb, rfl⟩ := (hasChild_iff_of_children children).1 hb
    -- The subtrees are in the order of their nodes, so that of `a` comes first.
    have hsorted := Node.pairwise_children ordered
    rw [← children, List.pairwise_map] at hsorted
    have hne : ta ≠ tb := by
      rintro rfl
      exact hab.not_ahead hab
    have hpair := pair_sublist_of_pairwise hsorted hta htb hne hab.not_ahead
    have hleaving : [ta.node.leaving].Sublist ta.events :=
      (List.sublist_cons_self _ _).trans (sublist_within (below ta hta) .refl)
    have hentry : [tb.node.entry].Sublist tb.events :=
      List.Sublist.trans (List.sublist_append_left _ [tb.node.leaving])
        (sublist_within (below tb htb) .refl)
    refine List.Sublist.trans ?_ (sublist_events_mk hpair)
    simp only [List.flatMap_cons, List.flatMap_nil, List.append_nil]
    exact ((hleaving.append hentry).trans (List.sublist_append_left _ _)).cons _

end Tree

/-! ## The nodes above a node -/

namespace Node

/-- The nodes above a node, nearest first, up to a root. -/
def Lineage (root : Node) : Node → List Node → Prop
  | n, [] => n = root
  | n, p :: rest => p.HasChild n ∧ Lineage root p rest

variable {root n m p q : Node} {ancestors : List Node}

theorem Reaches.ordered (h : root.Reaches n) (hroot : root.value.ordered = true) :
    n.value.ordered = true := by
  induction h with
  | refl => exact hroot
  | tail _ hchild ih => exact hchild.ordered ih

/-- A node below a root is settled by its place. -/
theorem Reaches.eq_of_way (hroot : root.value.ordered = true) (hn : root.Reaches n)
    (hm : root.Reaches m) (hway : n.way = m.way) : n = m := by
  induction hn generalizing m with
  | refl =>
    rcases ReflTransGen.cases_head hm with rfl | ⟨c, hchild, hm⟩
    · rfl
    · have hlength := (Reaches.way_suffix hm).length_le
      rw [← hway, hchild.length_way] at hlength
      omega
  | @tail p n hp hchild ih =>
    rcases ReflTransGen.cases_tail hm with rfl | ⟨q, hq, hchild'⟩
    · have hlength := (Reaches.way_suffix hp).length_le
      rw [← hway, hchild.length_way] at hlength
      omega
    · have hparent : p = q := by
        refine ih hq ?_
        rw [hchild.way_eq, hchild'.way_eq] at hway
        exact (List.cons.inj hway).2
      subst hparent
      exact hchild.eq_of_way hchild' (Reaches.ordered hp hroot) hway

theorem lineage_nil : root.Lineage n [] ↔ n = root := Iff.rfl

theorem lineage_cons : root.Lineage n (p :: ancestors) ↔ p.HasChild n ∧ root.Lineage p ancestors :=
  Iff.rfl

theorem Lineage.reaches (h : root.Lineage n ancestors) : root.Reaches n := by
  induction ancestors generalizing n with
  | nil => rw [Lineage] at h; rw [h]; exact .refl
  | cons p rest ih => exact .tail (ih h.2) h.1

/-- The way of a node leads through one parent only. -/
theorem HasChild.parent_eq (hroot : root.value.ordered = true) (hp : root.Reaches p)
    (hq : root.Reaches q) (hpn : p.HasChild n) (hqn : q.HasChild n) : p = q :=
  have hway := hpn.way_eq.symm.trans hqn.way_eq
  hp.eq_of_way hroot hq (List.cons.inj hway).2

/-- A node has one lineage. -/
theorem Lineage.unique {others : List Node} (hroot : root.value.ordered = true)
    (h : root.Lineage n ancestors) (h' : root.Lineage n others) : ancestors = others := by
  induction ancestors generalizing n others with
  | nil =>
    rw [Lineage] at h
    subst h
    cases others with
    | nil => rfl
    | cons q rest => exact absurd h'.2.reaches h'.1.not_reaches
  | cons p rest ih =>
    cases others with
    | nil =>
      rw [Lineage] at h'
      subst h'
      exact absurd h.2.reaches h.1.not_reaches
    | cons q rest' =>
      obtain rfl := h.1.parent_eq hroot h.2.reaches h'.2.reaches h'.1
      rw [ih h.2 h'.2]

/-- A lineage starts with the parent. -/
theorem Lineage.head?_eq_some_iff (hroot : root.value.ordered = true)
    (h : root.Lineage n ancestors) :
    ancestors.head? = some p ↔ root.Reaches p ∧ p.HasChild n := by
  cases ancestors with
  | nil =>
    rw [Lineage] at h
    subst h
    exact ⟨nofun, fun ⟨hp, hchild⟩ => absurd hp hchild.not_reaches⟩
  | cons q rest =>
    constructor
    · intro hq
      obtain rfl := Option.some.inj hq
      exact ⟨h.2.reaches, h.1⟩
    · rintro ⟨hp, hchild⟩
      rw [h.1.parent_eq hroot h.2.reaches hp hchild]
      rfl

/-- A lineage holds all nodes above and no others. -/
theorem Lineage.mem_iff (hroot : root.value.ordered = true) (h : root.Lineage n ancestors) :
    m ∈ ancestors ↔ root.Reaches m ∧ m.IsAbove n := by
  induction ancestors generalizing n with
  | nil =>
    rw [Lineage] at h
    subst h
    refine ⟨nofun, fun ⟨hm, habove⟩ => ?_⟩
    obtain ⟨c, hchild, hc⟩ := TransGen.head'_iff.1 habove
    exact absurd (hc.trans hm) hchild.not_reaches
  | cons p rest ih =>
    obtain ⟨hchild, hp⟩ := h
    rw [List.mem_cons, ih hp]
    constructor
    · rintro (rfl | ⟨hm, habove⟩)
      · exact ⟨hp.reaches, .single hchild⟩
      · exact ⟨hm, habove.tail hchild⟩
    · rintro ⟨hm, habove⟩
      obtain ⟨q, hmq, hchild'⟩ := TransGen.tail'_iff.1 habove
      obtain rfl := hchild.parent_eq hroot hp.reaches (hm.trans hmq) hchild'
      rcases ReflTransGen.cases_tail hmq with rfl | ⟨r, hmr, hr⟩
      · exact .inl rfl
      · exact .inr ⟨hm, TransGen.tail' hmr hr⟩

end Node

namespace Tree

variable {t : Tree} {v : Visit} {root : Node}

theorem mem_visitsOf {ancestors : List Node} {ts : List Tree} :
    v ∈ visitsOf ancestors ts ↔ ∃ t ∈ ts, v ∈ t.visits ancestors := by
  induction ts with
  | nil => simp [visitsOf]
  | cons t rest ih => simp [visitsOf, ih]

/-- The visits of a sound tree show the nodes above. -/
theorem lineage_of_mem_visits (h : t.Sound) {ancestors : List Node}
    (hl : root.Lineage t.node ancestors) (hv : v ∈ t.visits ancestors) :
    root.Lineage v.node v.ancestors := by
  induction h generalizing ancestors with
  | @mk n ts _ children _ ih =>
    rw [visits, List.mem_cons, List.mem_append, mem_visitsOf, List.mem_singleton] at hv
    rcases hv with rfl | ⟨t, ht, hv⟩ | rfl
    · exact hl
    · have hchild := (hasChild_iff_of_children children).2 ⟨t, ht, rfl⟩
      exact ih t ht (Node.lineage_cons.2 ⟨hchild, hl⟩) hv
    · exact hl

end Tree

end Steward.Lint
