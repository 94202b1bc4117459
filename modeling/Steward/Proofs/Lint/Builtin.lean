import Steward.Lint.Builtin
import Steward.Proofs.Lint.Independence

/-!
# The rules at hand are independent

Each of the rules has messages for all that it reports, and a handler of theirs that fails has
reported nothing before.

* `stateAfter_clientHandlers`: what the rule on clients keeps is what the visits before tell.
* `onNodes_of_mem_fileRules`: the rules that need no more than the file report visited nodes.
* `plain_of_mem_fileRules`, `plain_of_mem_projectRules`: the rules are plain.
* `rules_independent`: whatever the document, the file, the configuration and the reports on the
  project, the rules have no part in each other's findings.
-/

namespace Steward.Lint

open Outcome

/-! ## Rules that report nodes -/

/-- What a handler does that looks for nodes: nothing, a failure for want of a field, or one report
about a node of a list, which its rule has the message for. -/
inductive Outcome.OnNodes (about : About) (ns : List Node) : Outcome → Prop where
  | nothing : OnNodes about ns nothing
  | unexpectedShape (detail : String) : OnNodes about ns (fail (.unexpectedShape detail))
  | atNode {n : Node} {messageId : String} (hn : n ∈ ns)
      (h : (about.template? messageId).isSome = true) (data : List (String × String))
      (fix : Option Fix) : OnNodes about ns (atNode n messageId data fix)

/-- A rule all of whose reports are about nodes that were visited. -/
def Rule.OnNodes (r : Rule) : Prop :=
  ∀ file, ∀ f ∈ r.handlers file, ∀ before v,
    (f.2 before v).OnNodes r.about (v.node :: before.map Visit.node)

theorem Outcome.OnNodes.ite {about : About} {ns : List Node} {c : Prop} [Decidable c]
    {o o' : Outcome} (h : o.OnNodes about ns) (h' : o'.OnNodes about ns) :
    (if c then o else o').OnNodes about ns := by
  split
  · exact h
  · exact h'

theorem Outcome.OnNodes.plain {about : About} {ns : List Node} {o : Outcome}
    (h : o.OnNodes about ns) : o.Plain about := by
  cases h with
  | nothing => exact plain_nothing about
  | unexpectedShape detail => exact .unexpectedShape detail
  | atNode _ h data fix => exact plain_atNode h _ data fix

theorem Rule.OnNodes.plain {r : Rule} (h : r.OnNodes) : r.Plain :=
  fun file f hf before v => (h file f hf before v).plain

theorem onNodes_noTypeAssertions : noTypeAssertions.OnNodes := by
  intro file f hf before v
  have hcheck : (checkAssertion file v.node).OnNodes noTypeAssertions.about
      (v.node :: before.map Visit.node) := by
    unfold checkAssertion
    split
    · exact .unexpectedShape _
    · exact .ite .nothing (.atNode List.mem_cons_self rfl _ _)
  simp only [noTypeAssertions, List.mem_cons, List.not_mem_nil, or_false] at hf
  rcases hf with rfl | rfl <;> exact hcheck

theorem onNodes_preferZodValidation : preferZodValidation.OnNodes := by
  intro file f hf before v
  simp only [preferZodValidation, List.mem_cons, List.not_mem_nil, or_false] at hf
  rcases hf with rfl | rfl
  · exact .ite (.atNode List.mem_cons_self rfl _ _) .nothing
  · dsimp only
    split
    · exact .nothing
    · exact .ite .nothing (.atNode List.mem_cons_self rfl _ _)

theorem onNodes_noUseEffect : noUseEffect.OnNodes := by
  intro file f hf before v
  obtain rfl := List.mem_singleton.1 hf
  exact .ite (.atNode List.mem_cons_self rfl _ _) .nothing

/-! ### What the rule on clients keeps -/

/-- The new client of a visit, and its name. -/
def newClient? (v : Visit) : Option (Node × String) :=
  if v.tag = "NewExpression" ∧ v.node.hasIdentifier "callee" "PrismaClient" then
    some (v.node, (bindingName? v.parent?).getD defaultClient)
  else none

/-- The first new client of visits, last one first. -/
def clientOf? (before : List Visit) : Option (Node × String) := before.reverse.findSome? newClient?

/-- Whether a visit is that of a `$disconnect` inside a call of `afterAll`. -/
def isDisconnect (v : Visit) : Bool :=
  v.tag = "MemberExpression" && v.node.member? = some "$disconnect" && v.ancestors.any isAfterAll

/-- Whether a client is disconnected in some visit. -/
def disconnects (before : List Visit) : Bool := before.any isDisconnect

section
variable {file : File} {before : List Visit} {v : Visit} {client : Option (Node × String)}
  {gone : Bool}

theorem keepClient_fst (s : Clients) : (keepClient s v).1 = .nothing := by
  unfold keepClient
  split <;> rfl

theorem keepClient_snd (hv : v.tag = "NewExpression") :
    (keepClient ⟨client, gone⟩ v).2 = ⟨client.or (newClient? v), gone⟩ := by
  unfold keepClient newClient?
  cases v.node.hasIdentifier "callee" "PrismaClient" <;> cases client <;> simp [hv]

theorem noteDisconnect_fst (s : Clients) : (noteDisconnect s v).1 = .nothing := by
  unfold noteDisconnect
  split <;> rfl

theorem noteDisconnect_snd (hv : v.tag = "MemberExpression") :
    (noteDisconnect ⟨client, gone⟩ v).2 = ⟨client, isDisconnect v || gone⟩ := by
  unfold noteDisconnect isDisconnect
  simp only [hv, decide_true, Bool.true_and]
  split
  · next h => rw [h, Bool.true_or]
  · next h => rw [Bool.eq_false_iff.2 h, Bool.false_or]

theorem reportClient_snd (s : Clients) : (reportClient file s v).2 = s := by
  unfold reportClient
  split <;> rfl

theorem clientOf?_cons : clientOf? (v :: before) = (clientOf? before).or (newClient? v) := by
  rw [clientOf?, List.reverse_cons, List.findSome?_append]
  simp [clientOf?]

/-- What the handlers keep is the first new client of the visits, and whether one of them is that of
a `$disconnect`. -/
theorem stateAfter_clientHandlers (file : File) (before : List Visit) :
    stateAfter (clientHandlers file) {} before = ⟨clientOf? before, disconnects before⟩ := by
  induction before with
  | nil => rfl
  | cons v before ih =>
    have hdisconnects : disconnects (v :: before) = (isDisconnect v || disconnects before) := rfl
    rw [stateAfter, ih, clientOf?_cons, hdisconnects]
    by_cases hnew : v.tag = "NewExpression"
    · have hother : isDisconnect v = false := by simp [isDisconnect, hnew]
      rw [hother, Bool.false_or]
      simpa [clientHandlers, List.lookup_cons, hnew] using keepClient_snd hnew
    · have hclient : newClient? v = none := if_neg fun h => hnew h.1
      rw [hclient, Option.or_none]
      by_cases hmember : v.tag = "MemberExpression"
      · simpa [clientHandlers, List.lookup_cons, hmember] using noteDisconnect_snd hmember
      · have hother : isDisconnect v = false := by simp [isDisconnect, hmember]
        rw [hother, Bool.false_or]
        by_cases hexit : v.tag = "Program:exit"
        · simpa [clientHandlers, List.lookup_cons, hexit] using reportClient_snd _
        · simp [clientHandlers, List.lookup_cons, beq_eq_false_iff_ne.2 hnew,
            beq_eq_false_iff_ne.2 hmember, beq_eq_false_iff_ne.2 hexit]

end

theorem mem_of_clientOf?_eq_some {before : List Visit} {n : Node} {name : String}
    (h : clientOf? before = some (n, name)) : n ∈ before.map Visit.node := by
  obtain ⟨v, hv, hnew⟩ := List.exists_of_findSome?_eq_some h
  unfold newClient? at hnew
  split at hnew
  · obtain ⟨rfl, -⟩ := Prod.mk.inj (Option.some.inj hnew)
    exact List.mem_map_of_mem (List.mem_reverse.1 hv)
  · cases hnew

theorem onNodes_prismaClientDisconnect : prismaClientDisconnect.OnNodes := by
  intro file f hf before v
  simp only [prismaClientDisconnect] at hf
  split at hf
  · simp only [withState, clientHandlers, List.map_cons, List.map_nil, List.mem_cons,
      List.not_mem_nil, or_false] at hf
    rcases hf with rfl | rfl | rfl <;> dsimp only
    · rw [keepClient_fst]
      exact .nothing
    · rw [noteDisconnect_fst]
      exact .nothing
    · have hkept := stateAfter_clientHandlers file before
      rw [clientHandlers] at hkept
      rw [hkept, reportClient]
      split
      · exact .nothing
      · next n name hclient =>
        obtain ⟨hclient, -⟩ := Option.filter_eq_some_iff.1 hclient
        exact .atNode (List.mem_cons_of_mem v.node (mem_of_clientOf?_eq_some hclient)) rfl _ _
  · cases hf

theorem onNodes_requireStructuredLogging : requireStructuredLogging.OnNodes := by
  intro file f hf before v
  obtain rfl := List.mem_singleton.1 hf
  dsimp only
  split
  · exact .atNode List.mem_cons_self rfl _ _
  · exact .nothing

theorem onNodes_of_mem_fileRules {r : Rule} (h : r ∈ fileRules) : r.OnNodes := by
  simp only [fileRules, List.mem_cons, List.not_mem_nil, or_false] at h
  rcases h with rfl | rfl | rfl | rfl | rfl
  · exact onNodes_noTypeAssertions
  · exact onNodes_preferZodValidation
  · exact onNodes_noUseEffect
  · exact onNodes_prismaClientDisconnect
  · exact onNodes_requireStructuredLogging

/-! ## Rules that show reports -/

theorem plain_noUnusedExports (root : String) (report : Tool.Knip) :
    (noUnusedExports root report).Plain := by
  intro file f hf before v
  obtain rfl := List.mem_singleton.1 hf
  refine .reports fun r hr => ?_
  rcases List.mem_append.1 hr with hr | hr
  · split at hr
    · obtain rfl := List.mem_singleton.1 hr
      rfl
    · cases hr
  · split at hr
    · rcases List.mem_append.1 hr with hr | hr <;> obtain ⟨symbol, -, rfl⟩ := List.mem_map.1 hr <;>
        rfl
    · cases hr

theorem plain_noCodeDuplication (root : String) (report : Tool.Jscpd) :
    (noCodeDuplication root report).Plain := by
  intro file f hf before v
  obtain rfl := List.mem_singleton.1 hf
  refine .reports fun r hr => ?_
  obtain ⟨c, -, rfl⟩ := List.mem_map.1 hr
  rfl

/-! ## All rules -/

theorem plain_of_mem_fileRules {r : Rule} (h : r ∈ fileRules) : r.Plain :=
  (onNodes_of_mem_fileRules h).plain

theorem plain_of_mem_projectRules {root : String} {knip : Tool.Knip} {jscpd : Tool.Jscpd} {r : Rule}
    (h : r ∈ projectRules root knip jscpd) : r.Plain := by
  simp only [projectRules, List.mem_cons, List.not_mem_nil, or_false] at h
  rcases h with rfl | rfl
  · exact plain_noUnusedExports root knip
  · exact plain_noCodeDuplication root jscpd

/-- No two of the rules have one name. -/
theorem nodup_names (config : Config) (root : String) (knip : Tool.Knip) (jscpd : Tool.Jscpd) :
    ((Linter.ofProject config root knip jscpd).rules.map (·.about.name)).Nodup := by
  change (["no-type-assertions", "prefer-zod-validation", "no-use-effect",
    "prisma-client-disconnect", "require-structured-logging", "no-unused-exports",
    "no-code-duplication"] : List String).Nodup
  decide

theorem rules_independent (config : Config) (root : String) (knip : Tool.Knip)
    (jscpd : Tool.Jscpd) (file : File) {document : Json}
    (h : (Linter.program? document).isSome = true) :
    ∃ found, (Linter.ofProject config root knip jscpd).lint file document = .ok found ∧
      (Linter.ofProject config root knip jscpd).Independent file document found := by
  refine ⟨_, Linter.lint_eq h, Linter.independent_of_plain
    (nodup_names config root knip jscpd) (fun r hr => ?_) h⟩
  rcases List.mem_append.1 hr with hr | hr
  · exact plain_of_mem_fileRules hr
  · exact plain_of_mem_projectRules hr

/-- A call of `useEffect` at a known place. -/
def effectCall : Json :=
  .object [("callee", .object [("name", .text "useEffect"), ("type", .text "Identifier")]),
    ("loc", .object [("end", .object [("column", .int 11), ("line", .int 3)]),
      ("start", .object [("column", .int 0), ("line", .int 3)])]),
    ("type", .text "CallExpression")]

/-- A program that is a call of `useEffect`. -/
def effectProgram : Json := .object [("body", effectCall), ("type", .text "Program")]

/-- The tree of the program. -/
def effectTree : Tree :=
  .mk ⟨effectProgram, []⟩ [.mk ⟨effectCall, [.field "body"]⟩
    [.mk ⟨.object [("name", .text "useEffect"), ("type", .text "Identifier")],
      [.field "callee", .field "body"]⟩ []]]

theorem program?_effectProgram : Linter.program? effectProgram = some effectTree := by
  simp [Linter.program?, effectProgram, effectCall, effectTree, Tree.ofJson?, Tree.ofFields,
    Tree.node, nodeType?, Json.field?, Json.text?, List.lookup_cons, Node.plainFields, Node.type]

theorem rules_independent_effectProgram :
    (Linter.program? effectProgram).isSome = true ∧
    ∃ d, (Linter.ofProject {} "" {} {}).lint ⟨"a.ts", ""⟩ effectProgram = .ok [d] ∧
      d.rule = "no-use-effect" ∧ d.severity = .warn ∧
      ((Linter.ofProject {} "" {} {}).withRule "no-use-effect" .off).lint ⟨"a.ts", ""⟩
        effectProgram = .ok [] ∧
      ((Linter.ofProject {} "" {} {}).withRule "no-use-effect" .error).lint ⟨"a.ts", ""⟩
        effectProgram = .ok [{ d with severity := .error }] := by
  have hprogram : (Linter.program? effectProgram).isSome = true := by
    rw [program?_effectProgram]
    rfl
  have hrule : noUseEffect ∈ (Linter.ofProject {} "" {} {}).rules := by
    simp [Linter.ofProject, fileRules]
  obtain ⟨found, hlint, h⟩ := rules_independent {} "" {} {} ⟨"a.ts", ""⟩ hprogram
  have hmade : ((Linter.ofProject {} "" {} {}).made ⟨"a.ts", ""⟩ effectProgram).map
      (fun d => (d.rule, d.severity)) = [("no-use-effect", .warn)] := by
    rw [Linter.made, program?_effectProgram]
    decide +kernel
  obtain ⟨d, hd, hrule_severity⟩ := List.map_eq_singleton_iff.1 hmade
  obtain ⟨hname, hgrade⟩ := Prod.mk.inj hrule_severity
  rw [Linter.lint_eq hprogram, hd, List.mergeSort_singleton] at hlint
  cases hlint
  refine ⟨hprogram, d, ?_, hname, hgrade, ?_, ?_⟩
  · rw [Linter.lint_eq hprogram, hd, List.mergeSort_singleton]
  · exact (h.switched noUseEffect hrule).trans (by simp [hname, noUseEffect])
  · exact (h.regraded noUseEffect hrule nofun .error nofun).trans
      (by simp [Diagnostic.regrade, hname, noUseEffect])

end Steward.Lint
