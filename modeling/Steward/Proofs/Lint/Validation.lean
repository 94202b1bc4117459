import Mathlib.Data.List.Perm.Basic
import Steward.Lint.Rules.Validation
import Steward.Proofs.Lint.Single

/-!
# Parsed values that no schema checks

The rule on parsed JSON has one finding for each value that is parsed and not checked, and no
others. A value is checked where one of the four nodes next above it calls a schema, the value is
not in what is called, and no function stands between the two.

* `Parses`, `IsSchemaCall`, `Validated`: what the rule looks for.
* `isValidatedBy_iff`: that the way up from a node tells whether it is checked.
* `finding?`, `foundFrom_visits`: what is found at a visit, and in a program.
* `unvalidated_found_once`.
-/

namespace Steward.Lint

/-! ## What the rule looks for -/

/-- The node is a call `JSON.parse(…)`. -/
structure IsJsonParse (n : Node) : Prop where
  type : n.type = "CallExpression"
  callee : ∃ c, n.child? "callee" = some c ∧ c.LooksUp "parse" ∧ c.Names "object" "JSON"

/-- The node awaits a call without arguments of the member `json`, looked up in `callee`. -/
structure IsAwaitedJson (n callee : Node) : Prop where
  type : n.type = "AwaitExpression"
  call : ∃ call, n.child? "argument" = some call ∧ call.type = "CallExpression" ∧
    call.child? "callee" = some callee ∧ call.childList "arguments" = []
  json : callee.LooksUp "json"

/-- The value of the node is parsed, by what a message calls `source`. -/
inductive Parses (file : File) (n : Node) : (source : String) → Prop where
  | parse (h : IsJsonParse n) : Parses file n "JSON.parse()"
  | json {callee : Node} (h : IsAwaitedJson n callee) :
      Parses file n (receiverOf file callee ++ ".json()")

/-- The node calls a parsing method of something other than `JSON`. -/
structure IsSchemaCall (n : Node) : Prop where
  type : n.type = "CallExpression"
  callee : ∃ c, n.child? "callee" = some c ∧
    (∃ name ∈ ["parse", "safeParse", "parseAsync", "safeParseAsync"], c.LooksUp name) ∧
    ¬c.Names "object" "JSON"

/-- The node is a function. -/
def IsFunction (n : Node) : Prop :=
  n.type = "FunctionDeclaration" ∨ n.type = "FunctionExpression" ∨
    n.type = "ArrowFunctionExpression"

/-- The nodes above a node, nearest first, begin with some that are not functions and less than
`depth`, and a call of a schema in whose callee the node is not. -/
def ValidatedWithin (depth : Nat) (n : Node) (ancestors : List Node) : Prop :=
  ∃ between call above, ancestors = between ++ call :: above ∧ between.length < depth ∧
    (∀ f ∈ between, ¬IsFunction f) ∧ IsSchemaCall call ∧
    ∀ callee, call.child? "callee" = some callee → ¬callee.Reaches n

/-- One of the four nodes next above a node calls a schema, with the node not in what it calls and
no function between. -/
def Validated (root n : Node) : Prop :=
  ∃ ancestors, root.Lineage n ancestors ∧ ValidatedWithin 4 n ancestors

/-! ## The way up -/

variable {n p child root : Node} {ancestors : List Node} {depth : Nat}

theorem isFunction_iff : isFunction n = true ↔ IsFunction n := by
  simp [isFunction, IsFunction, or_assoc]

theorem isSchemaCall_iff : isSchemaCall n = true ↔ IsSchemaCall n := by
  have hmethod : ∀ c : Node, isSchemaMethod c = true ↔
      (∃ name ∈ ["parse", "safeParse", "parseAsync", "safeParseAsync"], c.LooksUp name) ∧
        ¬c.Names "object" "JSON" := by
    intro c
    rw [isSchemaMethod, Bool.and_eq_true, Bool.not_eq_true', ← Bool.not_eq_true,
      Node.hasIdentifier_iff, Option.any_eq_true]
    simp only [Node.member?_eq_some_iff, schemaMethods, List.contains_iff_mem]
    exact and_congr_left' ⟨fun ⟨name, hlooks, hname⟩ => ⟨name, hname, hlooks⟩,
      fun ⟨name, hname, hlooks⟩ => ⟨name, hlooks, hname⟩⟩
  rw [isSchemaCall, Bool.and_eq_true, decide_eq_true_eq, Option.any_eq_true]
  simp only [hmethod]
  exact ⟨fun ⟨htype, hcallee⟩ => ⟨htype, hcallee⟩, fun ⟨htype, hcallee⟩ => ⟨htype, hcallee⟩⟩

theorem IsSchemaCall.not_isFunction (h : IsSchemaCall n) : ¬IsFunction n := by
  unfold IsFunction
  rw [h.type]
  decide

/-- On the way up from a node, a child is what its parent calls if the node is in it. -/
theorem isCallee_iff (hp : p.value.ordered = true) (hchild : p.HasChild child)
    (hn : child.Reaches n) :
    isCallee child p = true ↔ ∃ callee, p.child? "callee" = some callee ∧ callee.Reaches n := by
  rw [isCallee, Option.any_eq_true]
  refine exists_congr fun callee => and_congr_right fun hcallee => ?_
  have hplain : p.HasChild callee := Node.hasChild_of_child? (by decide) hcallee
  rw [Node.same, decide_eq_true_eq]
  constructor
  · intro hway
    rwa [hplain.eq_of_way hchild hp hway]
  · exact fun hcallee => Node.way_eq_of_reaches hplain hchild hcallee hn

theorem not_validatedWithin_nil : ¬ValidatedWithin depth n [] := by
  rintro ⟨between, call, above, h, -⟩
  simp at h

theorem not_validatedWithin_zero : ¬ValidatedWithin 0 n ancestors := by
  rintro ⟨between, call, above, -, h, -⟩
  exact absurd h (Nat.not_lt_zero _)

theorem validatedWithin_cons_iff : ValidatedWithin (depth + 1) n (p :: ancestors) ↔
    (IsSchemaCall p ∧ ∀ callee, p.child? "callee" = some callee → ¬callee.Reaches n) ∨
      ¬IsFunction p ∧ ValidatedWithin depth n ancestors := by
  constructor
  · rintro ⟨between, call, above, hsplit, hlength, hfunctions, hcall⟩
    cases between with
    | nil =>
      obtain ⟨rfl, -⟩ := List.cons.inj hsplit
      exact .inl hcall
    | cons f between =>
      obtain ⟨rfl, rfl⟩ := List.cons.inj hsplit
      exact .inr ⟨hfunctions p List.mem_cons_self, between, call, above, rfl,
        Nat.lt_of_succ_lt_succ hlength, fun f hf => hfunctions f (List.mem_cons_of_mem _ hf), hcall⟩
  · rintro (hcall | ⟨hp, between, call, above, rfl, hlength, hfunctions, hcall⟩)
    · exact ⟨[], p, ancestors, rfl, Nat.succ_pos _, nofun, hcall⟩
    · exact ⟨p :: between, call, above, rfl, Nat.succ_lt_succ hlength,
        List.forall_mem_cons.2 ⟨hp, hfunctions⟩, hcall⟩

/-- The way up tells whether the node from which it starts is validated. -/
theorem isValidatedBy_iff (hroot : root.value.ordered = true) (h : root.Lineage child ancestors)
    (hn : child.Reaches n) (depth : Nat) :
    isValidatedBy child (ancestors.take depth) = true ↔ ValidatedWithin depth n ancestors := by
  -- On the nodes above, with the depth that is left; the node stays below the child at hand.
  induction ancestors generalizing child depth with
  | nil => simp [isValidatedBy, not_validatedWithin_nil]
  | cons p rest ih =>
    cases depth with
    | zero => simp [isValidatedBy, not_validatedWithin_zero]
    | succ depth =>
      have hrest := ih h.2 (.head h.1 hn) depth
      have hcall : (isSchemaCall p && !isCallee child p) = true ↔
          IsSchemaCall p ∧ ∀ callee, p.child? "callee" = some callee → ¬callee.Reaches n := by
        rw [Bool.and_eq_true, isSchemaCall_iff, Bool.not_eq_true', ← Bool.not_eq_true,
          isCallee_iff (h.2.reaches.ordered hroot) h.1 hn]
        simp only [not_exists, not_and]
      rw [List.take_succ_cons, isValidatedBy, validatedWithin_cons_iff, ← hrest, ← hcall]
      by_cases hfunction : IsFunction p
      · have hother : ¬IsSchemaCall p := fun hcall => hcall.not_isFunction hfunction
        simp [isFunction_iff.2 hfunction, hfunction, hcall, hother]
      · rw [if_neg (by rwa [isFunction_iff])]
        split
        · next hvalid => exact iff_of_true rfl (.inl hvalid)
        · next hvalid => rw [or_iff_right hvalid, and_iff_right hfunction]

theorem isValidated_iff {v : Visit} (hroot : root.value.ordered = true)
    (h : root.Lineage v.node v.ancestors) : isValidated v = true ↔ Validated root v.node := by
  rw [isValidated, isValidatedBy_iff hroot h .refl]
  constructor
  · exact fun hvalid => ⟨v.ancestors, h, hvalid⟩
  · rintro ⟨ancestors, h', hvalid⟩
    rwa [h.unique hroot h']

/-! ## What the visits tell -/

variable {t : Tree} {v : Visit} {file : File} {s : Severity} {source : String} {callee : Node}

theorem isJsonParse_iff : isJsonParse n = true ↔
    ∃ c, n.child? "callee" = some c ∧ c.LooksUp "parse" ∧ c.Names "object" "JSON" := by
  simp only [isJsonParse, Option.any_eq_true, Node.isMemberOf, Bool.and_eq_true, decide_eq_true_eq,
    Node.member?_eq_some_iff, Node.hasIdentifier_iff]

theorem awaitedJson?_eq_some_iff (htype : n.type = "AwaitExpression") :
    awaitedJson? n = some callee ↔ IsAwaitedJson n callee := by
  constructor
  · intro h
    obtain ⟨call, hcall, h⟩ := Option.bind_eq_some_iff.1 h
    obtain ⟨callee', hcallee, h⟩ := Option.bind_eq_some_iff.1 h
    obtain ⟨⟨hkind, hjson, hnone⟩, heq⟩ := Option.ite_none_right_eq_some.1 h
    obtain rfl := Option.some.inj heq
    exact ⟨htype, ⟨call, hcall, hkind, hcallee, List.isEmpty_iff.1 hnone⟩,
      Node.member?_eq_some_iff.1 hjson⟩
  · rintro ⟨-, ⟨call, hcall, hkind, hcallee, hnone⟩, hjson⟩
    simp [awaitedJson?, hcall, hcallee, hkind, hnone, Node.member?_eq_some_iff.2 hjson]

/-- What a message calls the value that is parsed at a visit, if one is. -/
def sourceOf? (file : File) (v : Visit) : Option String :=
  if v.tag = "CallExpression" then
    if isJsonParse v.node then some "JSON.parse()" else none
  else if v.tag = "AwaitExpression" then
    (awaitedJson? v.node).map fun callee => receiverOf file callee ++ ".json()"
  else none

theorem sourceOf?_eq_some_iff (h : t.Sound) (hv : v ∈ t.visits []) :
    sourceOf? file v = some source ↔ v = .enter v.node v.ancestors ∧ Parses file v.node source := by
  unfold sourceOf?
  constructor
  · intro hsource
    split at hsource
    · next htag =>
      have henter := Tree.eq_enter_of_mem_visits h hv (by rw [htag]; decide)
      have htype : v.node.type = "CallExpression" := (congrArg Visit.tag henter).symm.trans htag
      obtain ⟨hparse, heq⟩ := Option.ite_none_right_eq_some.1 hsource
      obtain rfl := Option.some.inj heq
      exact ⟨henter, .parse ⟨htype, isJsonParse_iff.1 hparse⟩⟩
    · obtain ⟨htag, hsource⟩ := Option.ite_none_right_eq_some.1 hsource
      have henter := Tree.eq_enter_of_mem_visits h hv (by rw [htag]; decide)
      have htype : v.node.type = "AwaitExpression" := (congrArg Visit.tag henter).symm.trans htag
      obtain ⟨callee, hcallee, rfl⟩ := Option.map_eq_some_iff.1 hsource
      exact ⟨henter, .json ((awaitedJson?_eq_some_iff htype).1 hcallee)⟩
  · rintro ⟨henter, hparse | hjson⟩
    · have htag : v.tag = "CallExpression" := (congrArg Visit.tag henter).trans hparse.type
      rw [if_pos htag, if_pos (isJsonParse_iff.2 hparse.callee)]
    · have htag : v.tag = "AwaitExpression" := (congrArg Visit.tag henter).trans hjson.type
      rw [if_neg (by rw [htag]; decide), if_pos htag,
        (awaitedJson?_eq_some_iff hjson.type).2 hjson]
      rfl

/-! ## The findings -/

/-- The finding for a value that is not validated, at a location. -/
def unvalidatedJson (file : File) (s : Severity) (source : String) (loc : Location) :
    Diagnostic where
  rule := "prefer-zod-validation"
  messageId := "unvalidatedJson"
  message := "Result of " ++ source ++ " is used without schema validation; " ++
    "pass it through a Zod schema's parse or safeParse."
  severity := s
  file := file.name
  line := loc.start.line
  column := loc.start.column + 1
  endLine := some loc.finish.line
  endColumn := some (loc.finish.column + 1)
  fix := none

/-- What is found at a visit. -/
def finding? (file : File) (s : Severity) (v : Visit) : Option Diagnostic :=
  if isValidated v then none
  else (sourceOf? file v).bind fun source => v.node.location?.map (unvalidatedJson file s source)

theorem template?_unvalidatedJson : preferZodValidation.about.template? "unvalidatedJson" =
    some ("Result of \x7b\x7bsource\x7d\x7d is used without schema validation; " ++
      "pass it through a Zod schema's parse or safeParse.") := rfl

theorem interpolate_unvalidatedJson (source : String) :
    interpolate ("Result of \x7b\x7bsource\x7d\x7d is used without schema validation; " ++
      "pass it through a Zod schema's parse or safeParse.") [("source", source)] =
    "Result of " ++ source ++ " is used without schema validation; " ++
      "pass it through a Zod schema's parse or safeParse." := by
  have hpieces : ∀ p ∈ ["Result of ".toList, (" is used without schema validation; " ++
      "pass it through a Zod schema's parse or safeParse.").toList], '\x7b' ∉ p := by decide
  rw [← String.toList_inj, toList_interpolate rfl hpieces]
  simp [List.intercalate]

theorem found_parsed (n : Node) (source : String) :
    (Outcome.atNode n "unvalidatedJson" [("source", source)]).found preferZodValidation.about s
      file = (n.location?.map (unvalidatedJson file s source)).toList := by
  rw [Outcome.found_atNode template?_unvalidatedJson]
  simp only [Report.toDiagnostic, interpolate_unvalidatedJson]
  rfl

theorem exists_call_handler (file : File) : ∃ f : Handler,
    preferZodValidation.handlersFor file "CallExpression" = [f] ∧
    ∀ before v, f before v =
      if isJsonParse v.node && !isValidated v then
        .atNode v.node "unvalidatedJson" [("source", "JSON.parse()")]
      else .nothing :=
  ⟨_, rfl, fun _ _ => rfl⟩

theorem exists_await_handler (file : File) : ∃ f : Handler,
    preferZodValidation.handlersFor file "AwaitExpression" = [f] ∧
    ∀ before v, f before v = match awaitedJson? v.node with
      | none => .nothing
      | some callee =>
        if isValidated v then .nothing
        else .atNode v.node "unvalidatedJson" [("source", receiverOf file callee ++ ".json()")] :=
  ⟨_, rfl, fun _ _ => rfl⟩

theorem foundAt_eq (before : List Visit) (v : Visit) :
    foundAt file before v (preferZodValidation, s) = (finding? file s v).toList := by
  unfold finding? sourceOf?
  by_cases hcall : v.tag = "CallExpression"
  · obtain ⟨f, hf, heq⟩ := exists_call_handler file
    rw [foundAt_of_handler (hcall ▸ hf), heq, if_pos hcall]
    cases hvalid : isValidated v <;> cases hparse : isJsonParse v.node <;> simp [found_parsed]
  · rw [if_neg hcall]
    by_cases hawait : v.tag = "AwaitExpression"
    · obtain ⟨f, hf, heq⟩ := exists_await_handler file
      rw [foundAt_of_handler (hawait ▸ hf), heq, if_pos hawait]
      cases hcallee : awaitedJson? v.node <;> cases hvalid : isValidated v <;> simp [found_parsed]
    · have hhandlers : preferZodValidation.handlersFor file v.tag = [] := by
        simp [Rule.handlersFor, preferZodValidation, Ne.symm hcall, Ne.symm hawait]
      rw [foundAt_of_no_handler hhandlers, if_neg hawait]
      simp

theorem foundFrom_visits (vs : List Visit) :
    foundFrom file [(preferZodValidation, s)] [] vs = vs.filterMap (finding? file s) := by
  rw [foundFrom_eq_flatMap fun before v _ => foundAt_eq before v, List.filterMap_eq_flatMap_toList]

/-- A finding is about a value, at its place. -/
def ShowsParsed (file : File) (s : Severity) (n : Node) (d : Diagnostic) : Prop :=
  ∃ source loc, Parses file n source ∧ n.location? = some loc ∧
    d = unvalidatedJson file s source loc

theorem finding?_eq_some {d : Diagnostic} (h : t.Sound) (hv : v ∈ t.visits [])
    (hd : finding? file s v = some d) :
    v = .enter v.node v.ancestors ∧ isValidated v = false ∧ ShowsParsed file s v.node d := by
  obtain ⟨hvalid, hd⟩ := Option.ite_none_left_eq_some.1 hd
  obtain ⟨source, hsource, hd⟩ := Option.bind_eq_some_iff.1 hd
  obtain ⟨loc, hloc, rfl⟩ := Option.map_eq_some_iff.1 hd
  obtain ⟨henter, hparses⟩ := (sourceOf?_eq_some_iff h hv).1 hsource
  exact ⟨henter, Bool.eq_false_iff.2 hvalid, source, loc, hparses, hloc, rfl⟩

theorem isSome_finding?_enter (h : t.Sound) (hv : .enter n ancestors ∈ t.visits [])
    (hvalid : isValidated (.enter n ancestors) = false) (hparses : Parses file n source)
    (hloc : n.location?.isSome = true) : (finding? file s (.enter n ancestors)).isSome = true := by
  obtain ⟨loc, hloc⟩ := Option.isSome_iff_exists.1 hloc
  rw [finding?, hvalid, if_neg Bool.false_ne_true,
    (sourceOf?_eq_some_iff h hv).2 ⟨rfl, hparses⟩, Option.bind_some]
  change (n.location?.map _).isSome = true
  rw [hloc]
  rfl

theorem forall₂_filterMap {α β : Type} {R : α → β → Prop} {f : α → Option β} {xs : List α}
    (h : ∀ x ∈ xs, ∀ y, f x = some y → R x y) :
    List.Forall₂ R (xs.filter fun x => (f x).isSome) (xs.filterMap f) := by
  induction xs with
  | nil => exact .nil
  | cons x xs ih =>
    have hrest := ih fun x' hx' => h x' (List.mem_cons_of_mem x hx')
    cases hx : f x with
    | none => simpa [hx] using hrest
    | some y => simpa [hx] using ⟨h x List.mem_cons_self y hx, hrest⟩

/-- The nodes that the findings at visits are about. -/
def reported (file : File) (s : Severity) (vs : List Visit) : List Node :=
  (vs.filter fun v => (finding? file s v).isSome).map Visit.node

theorem forall₂_reported (h : t.Sound) : List.Forall₂ (ShowsParsed file s)
    (reported file s (t.visits [])) ((t.visits []).filterMap (finding? file s)) := by
  rw [reported, List.forall₂_map_left_iff]
  exact forall₂_filterMap fun v hv d hd => (finding?_eq_some h hv hd).2.2

/-- No node is reported twice, since each is visited once on the way down. -/
theorem nodup_reported (h : t.Sound) : (reported file s (t.visits [])).Nodup := by
  have hentries : (reported file s (t.visits [])).map Node.entry =
      ((t.visits []).filter fun v => (finding? file s v).isSome).map Visit.event := by
    rw [reported, List.map_map]
    refine List.map_congr_left fun v hv => ?_
    obtain ⟨hmem, hsome⟩ := List.mem_filter.1 hv
    obtain ⟨d, hd⟩ := Option.isSome_iff_exists.1 hsome
    rw [(finding?_eq_some h hmem hd).1]
    rfl
  have hsublist := (List.filter_sublist (p := fun v => (finding? file s v).isSome)
    (l := t.visits [])).map Visit.event
  rw [← hentries, Tree.map_event_visits] at hsublist
  exact (hsublist.nodup (Tree.nodup_events h)).of_map _

theorem mem_reported_iff (h : t.Sound) (hnode : t.node = root) (hroot : root.value.ordered = true) :
    n ∈ reported file s (t.visits []) ↔ root.Reaches n ∧ n.location?.isSome = true ∧
      (∃ source, Parses file n source) ∧ ¬Validated root n := by
  have hlineage : ∀ v ∈ t.visits [], root.Lineage v.node v.ancestors := fun v hv =>
    Tree.lineage_of_mem_visits h (Node.lineage_nil.2 hnode) hv
  rw [reported, List.mem_map]
  constructor
  · rintro ⟨v, hv, rfl⟩
    obtain ⟨hv, hsome⟩ := List.mem_filter.1 hv
    obtain ⟨d, hd⟩ := Option.isSome_iff_exists.1 hsome
    obtain ⟨-, hvalid, source, loc, hparses, hloc, -⟩ := finding?_eq_some h hv hd
    refine ⟨hnode ▸ Tree.reaches_of_mem_visits h hv, by rw [hloc]; rfl, ⟨source, hparses⟩, ?_⟩
    rw [← isValidated_iff hroot (hlineage v hv), hvalid]
    exact Bool.false_ne_true
  · rintro ⟨hn, hloc, ⟨source, hparses⟩, hvalid⟩
    obtain ⟨above, hv⟩ := Tree.exists_enter h (hnode ▸ hn) []
    have hfalse : isValidated (.enter n above) = false := by
      rw [← Bool.not_eq_true, isValidated_iff hroot (hlineage _ hv)]
      exact hvalid
    exact ⟨_, List.mem_filter.2 ⟨hv, isSome_finding?_enter h hv hfalse hparses hloc⟩, rfl⟩

/-- With no other rule on, the findings are, one for one, about the nodes with a location whose
values are parsed and not validated. -/
theorem unvalidated_found_once {l : Linter} {document : Json}
    (hsole : l.Sole preferZodValidation s file document) :
    ∃ found ns, l.lint file document = .ok found ∧ ns.Nodup ∧
      (∀ n, n ∈ ns ↔ (rootOf document).Reaches n ∧ n.location?.isSome = true ∧
        (∃ source, Parses file n source) ∧ ¬Validated (rootOf document) n) ∧
      List.Forall₂ (ShowsParsed file s) ns found := by
  obtain ⟨t, -, hsound, hnode, hlint⟩ := hsole.exists_tree
  rw [foundFrom_visits] at hlint
  -- The findings are sorted, and the nodes follow them.
  have hsorted := (List.mergeSort_perm ((t.visits []).filterMap (finding? file s))
    Diagnostic.before).symm
  have hcomp : Relation.Comp (List.Forall₂ (ShowsParsed file s)) List.Perm
      (reported file s (t.visits [])) _ := ⟨_, forall₂_reported hsound, hsorted⟩
  rw [List.forall₂_comp_perm_eq_perm_comp_forall₂] at hcomp
  obtain ⟨ns, hperm, hshown⟩ := hcomp
  exact ⟨_, ns, hlint, hperm.nodup_iff.1 (nodup_reported hsound),
    fun n => hperm.mem_iff.symm.trans (mem_reported_iff hsound hnode hsole.ordered), hshown⟩

/-- A call of `json` on what has no name, awaited at a known place. -/
def awaitedCall : Json :=
  .object [("argument", .object [
      ("callee", .object [
        ("property", .object [("name", .text "json"), ("type", .text "Identifier")]),
        ("type", .text "MemberExpression")]),
      ("type", .text "CallExpression")]),
    ("loc", .object [("end", .object [("column", .int 17), ("line", .int 2)]),
      ("start", .object [("column", .int 0), ("line", .int 2)])]),
    ("type", .text "AwaitExpression")]

/-- A program that does nothing else. -/
def awaitProgram : Json := .object [("body", awaitedCall), ("type", .text "Program")]

/-- The tree of the program. -/
def awaitTree : Tree :=
  .mk ⟨awaitProgram, []⟩ [.mk ⟨awaitedCall, [.field "body"]⟩
    [.mk ⟨.object [
        ("callee", .object [
          ("property", .object [("name", .text "json"), ("type", .text "Identifier")]),
          ("type", .text "MemberExpression")]),
        ("type", .text "CallExpression")], [.field "argument", .field "body"]⟩
      [.mk ⟨.object [
          ("property", .object [("name", .text "json"), ("type", .text "Identifier")]),
          ("type", .text "MemberExpression")], [.field "callee", .field "argument", .field "body"]⟩
        [.mk ⟨.object [("name", .text "json"), ("type", .text "Identifier")],
          [.field "property", .field "callee", .field "argument", .field "body"]⟩ []]]]]

theorem program?_awaitProgram : Linter.program? awaitProgram = some awaitTree := by
  simp [Linter.program?, awaitProgram, awaitedCall, awaitTree, Tree.ofJson?, Tree.ofFields,
    Tree.node, nodeType?, Json.field?, Json.text?, List.lookup_cons, Node.plainFields, Node.type]

/-- A linter with this rule only. -/
def parsedLinter : Linter := { rules := [preferZodValidation] }

theorem sole_parsedLinter :
    parsedLinter.Sole preferZodValidation .error ⟨"src/a.ts", ""⟩ awaitProgram where
  active := rfl
  heeded := by decide
  ordered := by decide
  program := by decide

theorem unvalidated_found_awaitProgram :
    parsedLinter.Sole preferZodValidation .error ⟨"src/a.ts", ""⟩ awaitProgram ∧
    ∃ n, (rootOf awaitProgram).Reaches n ∧ ¬Validated (rootOf awaitProgram) n ∧
      ShowsParsed ⟨"src/a.ts", ""⟩ .error n
        (unvalidatedJson ⟨"src/a.ts", ""⟩ .error "response.json()" ⟨⟨2, 0⟩, ⟨2, 17⟩⟩) := by
  refine ⟨sole_parsedLinter, ?_⟩
  obtain ⟨found, ns, hlint, -, hmem, hshown⟩ := unvalidated_found_once sole_parsedLinter
  have hmade : parsedLinter.made ⟨"src/a.ts", ""⟩ awaitProgram =
      [unvalidatedJson ⟨"src/a.ts", ""⟩ .error "response.json()" ⟨⟨2, 0⟩, ⟨2, 17⟩⟩] := by
    rw [Linter.made, program?_awaitProgram]
    decide +kernel
  rw [Linter.lint_eq (by rw [program?_awaitProgram]; rfl), hmade, List.mergeSort_singleton] at hlint
  obtain rfl := Except.ok.inj hlint
  obtain ⟨n, rest, hn, -, rfl⟩ := List.forall₂_cons_right_iff.1 hshown
  obtain ⟨hreach, -, -, hnot⟩ := (hmem n).1 List.mem_cons_self
  exact ⟨n, hreach, hnot, hn⟩

end Steward.Lint
