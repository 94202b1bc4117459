import Steward.Proofs.Lint.Reported
import Steward.Proofs.Lint.Traversal

/-!
# One rule by itself

A linter that has one rule on finds in a program what the handlers of this rule find at the visits
of the tree. What a handler is shown at a visit are a node and the nodes above it, and every node
below the root has its visit.

* `Linter.Sole`, `Linter.Sole.exists_tree`: what is found in a program by one rule.
* `Linter.exists_sole_of_lintText`: programs that were read from a text are such programs.
* `foundFrom_append`, `foundFrom_eq_flatMap`: findings visit by visit.
* `Outcome.found_atNode`, `toList_interpolate`: the finding that a report is, and its message.
* `Tree.eq_enter_of_mem_visits`, `Tree.exists_enter`: visits of nodes on the way down.
* `Node.Names`, `Node.LooksUp`: identifiers and members, as the rules read them.
-/

namespace Steward.Lint

/-! ## The findings of one rule -/

/-- A linter has one rule on, and looks with it at a file that holds a program. -/
structure Linter.Sole (l : Linter) (r : Rule) (s : Severity) (file : File) (document : Json) :
    Prop where
  active : l.active = [(r, s)]
  heeded : l.config.ignores file.name = false
  ordered : document.ordered = true
  program : nodeType? document = some "Program"

/-- The root of a document. -/
def rootOf (document : Json) : Node := ⟨document, []⟩

variable {l : Linter} {r : Rule} {s : Severity} {file : File} {document : Json}
  {rules : List (Rule × Severity)} {before vs : List Visit}

/-- What one rule finds in a program are its findings at the visits of a sound tree. -/
theorem Linter.Sole.exists_tree (h : l.Sole r s file document) :
    ∃ t, program? document = some t ∧ t.Sound ∧ t.node = rootOf document ∧
      l.lint file document =
        .ok ((foundFrom file [(r, s)] [] (t.visits [])).mergeSort Diagnostic.before) := by
  obtain ⟨t, ht, htree, hnode⟩ := exists_program h.program
  refine ⟨t, ht, Tree.sound_of_ofJson? [] document h.ordered t htree, hnode, ?_⟩
  rw [lint_eq (by rw [ht]; rfl), made_eq_foundFrom h.heeded ht, h.active]

/-- What is linted of a text by one rule is a program that `Sole` takes. -/
theorem Linter.exists_sole_of_lintText {text : String} {found : List Diagnostic}
    (hactive : l.active = [(r, s)]) (hheeded : l.config.ignores file.name = false)
    (h : l.lintText file (Json.readWhole? text) = .ok found) :
    ∃ document, Json.readWhole? text = some document ∧ l.Sole r s file document ∧
      l.lint file document = .ok found := by
  obtain ⟨document, hread, hordered, hprogram, hlint⟩ := exists_program_of_lintText hheeded h
  exact ⟨document, hread, ⟨hactive, hheeded, hordered, hprogram⟩, hlint⟩

theorem foundFrom_append (before vs vs' : List Visit) :
    foundFrom file rules before (vs ++ vs') =
      foundFrom file rules before vs ++ foundFrom file rules (vs.reverse ++ before) vs' := by
  induction vs generalizing before with
  | nil => rfl
  | cons v rest ih =>
    rw [List.cons_append, foundFrom, foundFrom, ih, List.reverse_cons, List.append_assoc,
      List.append_assoc]
    rfl

/-- Where it does not matter what was visited before, each visit has its findings. -/
theorem foundFrom_eq_flatMap {found : Visit → List Diagnostic}
    (h : ∀ before, ∀ v ∈ vs, foundAt file before v (r, s) = found v) (before : List Visit) :
    foundFrom file [(r, s)] before vs = vs.flatMap found := by
  induction vs generalizing before with
  | nil => rfl
  | cons v rest ih =>
    rw [foundFrom, List.flatMap_singleton, h before v List.mem_cons_self, List.flatMap_cons,
      ih (fun before v hv => h before v (List.mem_cons_of_mem _ hv))]

/-- What is found of what a handler did. -/
def Outcome.found (o : Outcome) (about : About) (s : Severity) (file : File) : List Diagnostic :=
  (taken about s file o.fault o.reports).1

theorem foundAt_of_handler {v : Visit} {f : Handler} (h : r.handlersFor file v.tag = [f])
    (before : List Visit) : foundAt file before v (r, s) = (f before v).found r.about s file := by
  rw [foundAt, h, List.flatMap_singleton]
  rfl

theorem foundAt_of_no_handler {v : Visit} (h : r.handlersFor file v.tag = [])
    (before : List Visit) : foundAt file before v (r, s) = [] := by
  rw [foundAt, h, List.flatMap_nil]

@[simp] theorem Outcome.found_nothing (about : About) : Outcome.nothing.found about s file = [] :=
  rfl

/-- A report that covers a node is a finding if the node has a location. -/
theorem Outcome.found_atNode {about : About} {messageId template : String}
    (h : about.template? messageId = some template) (n : Node) (data : List (String × String))
    (fix : Option Fix) :
    (Outcome.atNode n messageId data fix).found about s file =
      (n.location?.map fun loc =>
        ({ messageId, span := .ofLocation loc, data, fix } : Report).toDiagnostic about s file
          template).toList := by
  unfold Outcome.found Outcome.atNode
  cases n.location? <;> simp [taken, Outcome.fail, h]

/-- Where the braces of one name join pieces of a template, the value joins them in the message. -/
theorem toList_interpolate {template name : String} {pieces : List (List Char)}
    (h : template.toList =
      ("\x7b\x7b".toList ++ name.toList ++ "\x7d\x7d".toList).intercalate pieces)
    (hpieces : ∀ p ∈ pieces, '\x7b' ∉ p) (value : String) :
    (interpolate template [(name, value)]).toList = value.toList.intercalate pieces := by
  rw [interpolate, String.toList_ofList, List.foldl_cons, List.foldl_nil, h]
  exact Text.replaceAll_intercalate ("\x7b".toList ++ name.toList ++ "\x7d\x7d".toList)
    value.toList hpieces

/-! ## Visits -/

namespace Visit

variable {v : Visit} {n : Node}

theorem eq_enter_of_event (h : v.event = n.entry) : v = .enter n v.ancestors := by
  obtain ⟨tag, m, above⟩ := v
  obtain ⟨htag, hnode⟩ : tag = n.type ∧ m = n := Prod.mk.inj h
  rw [htag, hnode]
  rfl

theorem eq_exit_of_event (h : v.event = n.leaving) : v = .exit n v.ancestors := by
  obtain ⟨tag, m, above⟩ := v
  obtain ⟨htag, hnode⟩ : tag = n.type ++ ":exit" ∧ m = n := Prod.mk.inj h
  rw [htag, hnode]
  rfl

end Visit

namespace Tree

variable {t : Tree} {v : Visit} {n : Node} {ancestors : List Node}

theorem mem_events_of_mem_visits (hv : v ∈ t.visits ancestors) : v.event ∈ t.events := by
  rw [← map_event_visits ancestors]
  exact List.mem_map_of_mem hv

theorem reaches_of_mem_visits (h : t.Sound) (hv : v ∈ t.visits ancestors) :
    t.node.Reaches v.node :=
  reaches_of_mem_events h (mem_events_of_mem_visits hv)

/-- A tag that does not say so is not one on the way up. -/
theorem eq_enter_of_mem_visits (h : t.Sound) (hv : v ∈ t.visits ancestors)
    (htag : ¬":exit".toList <:+ v.tag.toList) : v = .enter v.node v.ancestors := by
  obtain ⟨n, -, he | he⟩ := (mem_events_iff h).1 (mem_events_of_mem_visits hv)
  · rw [Visit.eq_enter_of_event he]
    rfl
  · rw [Visit.eq_exit_of_event he, Visit.exit, String.toList_append] at htag
    exact absurd (List.suffix_append _ _) htag

/-- Every node below the root is visited on the way down. -/
theorem exists_enter (h : t.Sound) (hn : t.node.Reaches n) (ancestors : List Node) :
    ∃ above, Visit.enter n above ∈ t.visits ancestors := by
  have hentry : n.entry ∈ t.events := (mem_events_iff h).2 ⟨n, hn, .inl rfl⟩
  rw [← map_event_visits ancestors] at hentry
  obtain ⟨v, hv, he⟩ := List.mem_map.1 hentry
  exact ⟨v.ancestors, Visit.eq_enter_of_event he ▸ hv⟩

/-- The root is the last node that is visited, on the way up. -/
theorem exists_visits_eq (t : Tree) (ancestors : List Node) :
    ∃ vs, t.visits ancestors = vs ++ [.exit t.node ancestors] := by
  obtain ⟨n, ts⟩ := t
  exact ⟨.enter n ancestors :: visitsOf (n :: ancestors) ts, rfl⟩

end Tree

/-- What holds of the nodes of all events of a program holds of all nodes below its root. -/
theorem forall_reaches_of_events {P : Node → Prop} [DecidablePred P]
    (hordered : document.ordered = true) (hprogram : nodeType? document = some "Program")
    (h : (Linter.program? document).all (fun t => t.events.all fun e => P e.2) = true) :
    ∀ n, (rootOf document).Reaches n → P n := by
  obtain ⟨t, ht, htree, hnode⟩ := exists_program hprogram
  have hsound := Tree.sound_of_ofJson? [] document hordered t htree
  rw [ht, Option.all_some, List.all_eq_true] at h
  intro n hn
  have hentry : n.entry ∈ t.events := (Tree.mem_events_iff hsound).2 ⟨n, hnode ▸ hn, .inl rfl⟩
  exact of_decide_eq_true (h _ hentry)

/-! ## Identifiers and members -/

namespace Node

variable {n : Node} {field name : String}

/-- A field of a node holds the identifier of a name. -/
def Names (n : Node) (field name : String) : Prop :=
  ∃ c, n.child? field = some c ∧ c.identifier? = some name

/-- A node looks up a member by its name. -/
structure LooksUp (n : Node) (name : String) : Prop where
  type : n.type = "MemberExpression"
  plain : n.isComputed = false
  property : n.Names "property" name

theorem hasIdentifier_iff : n.hasIdentifier field name = true ↔ n.Names field name := by
  simp [hasIdentifier, isIdentifier, Names, Option.any_eq_true]

theorem member?_eq_some_iff : n.member? = some name ↔ n.LooksUp name := by
  unfold member?
  constructor
  · intro h
    obtain ⟨hkind, hname⟩ := Option.ite_none_left_eq_some.1 h
    obtain ⟨htype, hplain⟩ := not_or.1 hkind
    exact ⟨not_not.1 htype, Bool.eq_false_iff.2 hplain, Option.bind_eq_some_iff.1 hname⟩
  · rintro ⟨htype, hplain, hname⟩
    rw [if_neg (by simp [htype, hplain])]
    exact Option.bind_eq_some_iff.2 hname

end Node

end Steward.Lint
