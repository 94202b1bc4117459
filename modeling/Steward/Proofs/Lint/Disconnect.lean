import Steward.Lint.Rules.Disconnect
import Steward.Proofs.Lint.Fix
import Steward.Proofs.Lint.Single

/-!
# Clients that are never disconnected

The rule on database clients in tests makes at most one finding, at the end of a program. It does so
if and only if the file is a test, a client is created, and no `$disconnect` stands anywhere below a
call of `afterAll`, in whatever order these come. The finding is at the client that the walk comes
to first, and its fix puts the call of `afterAll` behind the source.

* `IsClient`, `IsFirstClient`, `IsClientName`, `Disconnects`: what the rule looks for.
* `isFirstClient_of_findSome?`, `any_isDisconnect_iff`: that the visits of a tree tell it.
* `foundFrom_program`: what is found in a program is found on the way out of it.
* `fixAll_missingDisconnect`: what the fix makes of a source.
* `client_found_iff_never_disconnected`.
-/

namespace Steward.Lint

/-! ## What the rule looks for -/

/-- The node creates a client. -/
structure IsClient (n : Node) : Prop where
  type : n.type = "NewExpression"
  callee : n.Names "callee" "PrismaClient"

/-- The client that a walk comes to first. -/
structure IsFirstClient (w : Walk) (root n : Node) : Prop where
  reached : root.Reaches n
  client : IsClient n
  first : ∀ m, root.Reaches m → IsClient m → m ≠ n → [n.entry, m.entry].Sublist w.events

/-- A node binds the value in one of its fields to a name: an identifier or a named member. -/
inductive Binds (p : Node) (name : String) : Prop where
  | declaration {target : Node} (htype : p.type = "VariableDeclarator")
      (htarget : p.child? "id" = some target)
      (hname : target.identifier? = some name ∨ target.LooksUp name)
  | assignment {target : Node} (htype : p.type = "AssignmentExpression")
      (htarget : p.child? "left" = some target)
      (hname : target.identifier? = some name ∨ target.LooksUp name)

/-- The name for a client: the one that its parent binds it to, or else `prisma`. -/
inductive IsClientName (root n : Node) : String → Prop where
  | bound {p : Node} {name : String} (hp : root.Reaches p) (hchild : p.HasChild n)
      (hbinds : Binds p name) : IsClientName root n name
  | unbound (h : ∀ p name, root.Reaches p → p.HasChild n → ¬Binds p name) :
      IsClientName root n "prisma"

/-- Somewhere below a call of `afterAll` a member `$disconnect` is looked up. -/
def Disconnects (root : Node) : Prop :=
  ∃ m a, root.Reaches m ∧ m.LooksUp "$disconnect" ∧ root.Reaches a ∧ a.IsAbove m ∧
    a.type = "CallExpression" ∧ a.Names "callee" "afterAll"

/-! ## Names -/

variable {n p root target : Node} {name : String}

theorem identifier?_or_member?_eq_some_iff :
    target.identifier?.or target.member? = some name ↔
      target.identifier? = some name ∨ target.LooksUp name := by
  rw [Option.or_eq_some_iff, Node.member?_eq_some_iff]
  refine or_congr_right ⟨And.right, fun h => ⟨?_, h⟩⟩
  rw [Node.identifier?, if_neg (by simp [h.type])]

theorem bindingName?_some (p : Node) : bindingName? (some p) =
    (if p.type = "VariableDeclarator" then p.child? "id"
      else if p.type = "AssignmentExpression" then p.child? "left" else none).bind
        fun target => target.identifier?.or target.member? := by
  unfold bindingName?
  simp only [Option.bind_eq_bind, Option.bind_some]
  split
  · rfl
  · split <;> rfl

theorem bindingName?_eq_some_iff : bindingName? (some p) = some name ↔ Binds p name := by
  rw [bindingName?_some, Option.bind_eq_some_iff]
  simp only [identifier?_or_member?_eq_some_iff]
  constructor
  · rintro ⟨target, htarget, hname⟩
    split at htarget
    · next htype => exact .declaration htype htarget hname
    · obtain ⟨htype, htarget⟩ := Option.ite_none_right_eq_some.1 htarget
      exact .assignment htype htarget hname
  · rintro (⟨htype, htarget, hname⟩ | ⟨htype, htarget, hname⟩)
    · exact ⟨_, by rw [if_pos htype, htarget], hname⟩
    · have hother : p.type ≠ "VariableDeclarator" := by
        rw [htype]
        decide
      exact ⟨_, by rw [if_neg hother, if_pos htype, htarget], hname⟩

theorem isClientName_of_lineage {ancestors : List Node} (hroot : root.value.ordered = true)
    (h : root.Lineage n ancestors) :
    IsClientName root n ((bindingName? ancestors.head?).getD defaultClient) := by
  cases hname : bindingName? ancestors.head? with
  | some name =>
    cases hparent : ancestors.head? with
    | none =>
      rw [hparent] at hname
      cases hname
    | some p =>
      obtain ⟨hp, hchild⟩ := (h.head?_eq_some_iff hroot).1 hparent
      rw [hparent] at hname
      exact .bound hp hchild (bindingName?_eq_some_iff.1 hname)
  | none =>
    refine .unbound fun p name hp hchild hbinds => ?_
    rw [(h.head?_eq_some_iff hroot).2 ⟨hp, hchild⟩, bindingName?_eq_some_iff.2 hbinds] at hname
    cases hname

/-! ## What the visits tell -/

variable {t : Tree} {v : Visit}

theorem newClient?_enter_isSome_iff (n : Node) (ancestors : List Node) :
    (newClient? (.enter n ancestors)).isSome ↔ IsClient n := by
  unfold newClient?
  rw [Option.isSome_ite, Node.hasIdentifier_iff]
  exact ⟨fun ⟨htype, hcallee⟩ => ⟨htype, hcallee⟩, fun ⟨htype, hcallee⟩ => ⟨htype, hcallee⟩⟩

theorem newClient?_eq_some (h : t.Sound) (hv : v ∈ t.visits [])
    (hclient : newClient? v = some (n, name)) :
    v = .enter n v.ancestors ∧ IsClient n ∧
      name = (bindingName? v.ancestors.head?).getD defaultClient := by
  obtain ⟨⟨htag, hcallee⟩, heq⟩ := Option.ite_none_right_eq_some.1 hclient
  obtain ⟨rfl, rfl⟩ := Prod.mk.inj (Option.some.inj heq)
  have henter := Tree.eq_enter_of_mem_visits h hv (by rw [htag]; decide)
  have htype : v.tag = v.node.type := congrArg Visit.tag henter
  exact ⟨henter, ⟨htype.symm.trans htag, Node.hasIdentifier_iff.1 hcallee⟩, rfl⟩

theorem isDisconnect_iff (h : t.Sound) (hv : v ∈ t.visits []) (hnode : t.node = root)
    (hroot : root.value.ordered = true) :
    isDisconnect v = true ↔ v.tag = "MemberExpression" ∧ v.node.LooksUp "$disconnect" ∧
      ∃ a, (root.Reaches a ∧ a.IsAbove v.node) ∧ a.type = "CallExpression" ∧
        a.Names "callee" "afterAll" := by
  have hlineage := Tree.lineage_of_mem_visits h (Node.lineage_nil.2 hnode) hv
  simp only [isDisconnect, Bool.and_eq_true, decide_eq_true_eq, Node.member?_eq_some_iff,
    List.any_eq_true, hlineage.mem_iff hroot, isAfterAll, Node.hasIdentifier_iff, and_assoc]

theorem any_isDisconnect_iff (h : t.Sound) (hnode : t.node = root)
    (hroot : root.value.ordered = true) :
    (t.visits []).any isDisconnect = true ↔ Disconnects root := by
  rw [List.any_eq_true]
  constructor
  · rintro ⟨v, hv, hdisconnect⟩
    obtain ⟨-, hlooks, a, ⟨ha, habove⟩, hcall⟩ :=
      (isDisconnect_iff h hv hnode hroot).1 hdisconnect
    exact ⟨v.node, a, hnode ▸ Tree.reaches_of_mem_visits h hv, hlooks, ha, habove, hcall⟩
  · rintro ⟨m, a, hm, hlooks, ha, habove, hcall⟩
    obtain ⟨above, hv⟩ := Tree.exists_enter h (hnode ▸ hm) []
    exact ⟨_, hv, (isDisconnect_iff h hv hnode hroot).2
      ⟨hlooks.type, hlooks, a, ⟨ha, habove⟩, hcall⟩⟩

theorem clientOf?_reverse (vs : List Visit) : clientOf? vs.reverse = vs.findSome? newClient? := by
  rw [clientOf?, List.reverse_reverse]

theorem disconnects_reverse (vs : List Visit) : disconnects vs.reverse = vs.any isDisconnect :=
  List.any_reverse

/-- The first client that is visited is the first of the walk. -/
theorem isFirstClient_of_findSome? {l : Linter} {file : File} (h : t.Sound) (hnode : t.node = root)
    (hroot : root.value.ordered = true)
    (hfound : (t.visits []).findSome? newClient? = some (n, name)) :
    IsFirstClient (l.walk file t) root n ∧ IsClientName root n name := by
  obtain ⟨before, v, after, hvisits, hclient, hbefore⟩ := List.findSome?_eq_some_iff.1 hfound
  have hv : v ∈ t.visits [] := by
    rw [hvisits]
    exact List.mem_append_right _ List.mem_cons_self
  obtain ⟨henter, hn, hname⟩ := newClient?_eq_some h hv hclient
  have hlineage := Tree.lineage_of_mem_visits h (Node.lineage_nil.2 hnode) hv
  have hvn : v.node = n := congrArg Visit.node henter
  have hreach := Tree.reaches_of_mem_visits h hv
  rw [hnode, hvn] at hreach
  rw [hvn] at hlineage
  refine ⟨⟨hreach, hn, fun m hm hmclient hne => ?_⟩, hname ▸ isClientName_of_lineage hroot hlineage⟩
  rw [l.walk_events, ← Tree.map_event_visits [], hvisits, List.map_append, List.map_cons]
  -- The visit of another client is not before this one, and so behind it.
  obtain ⟨above, hu⟩ := Tree.exists_enter h (hnode ▸ hm) []
  have hafter : Visit.enter m above ∈ after := by
    rw [hvisits] at hu
    rcases List.mem_append.1 hu with hu | hu
    · have hsome := (newClient?_enter_isSome_iff _ above).2 hmclient
      rw [hbefore _ hu] at hsome
      cases hsome
    · rcases List.mem_cons.1 hu with hu | hu
      · exact absurd ((congrArg Visit.node hu).trans hvn) hne
      · exact hu
  have hentry : m.entry ∈ after.map Visit.event := List.mem_map_of_mem hafter
  have hfirst : v.event = n.entry := congrArg Visit.event henter
  rw [hfirst]
  exact ((List.singleton_sublist.2 hentry).cons_cons _).trans (List.sublist_append_right _ _)

theorem not_isClient_of_findSome? (h : t.Sound) (hnode : t.node = root)
    (hfound : (t.visits []).findSome? newClient? = none) (hn : root.Reaches n) : ¬IsClient n := by
  intro hclient
  obtain ⟨above, hv⟩ := Tree.exists_enter h (hnode ▸ hn) []
  have hsome := (newClient?_enter_isSome_iff _ above).2 hclient
  rw [List.findSome?_eq_none_iff.1 hfound _ hv] at hsome
  cases hsome

theorem not_sublist_swap {α : Type} {a b : α} {xs : List α} (h : xs.Nodup)
    (hab : [a, b].Sublist xs) : ¬[b, a].Sublist xs := by
  intro hba
  induction xs with
  | nil => cases hab
  | cons x rest ih =>
    obtain ⟨hx, hrest⟩ := List.nodup_cons.1 h
    cases hab with
    | cons _ hab =>
      cases hba with
      | cons _ hba => exact ih hrest hab hba
      | cons_cons _ _ => exact hx (hab.subset (by simp))
    | cons_cons _ hab =>
      cases hba with
      | cons _ hba => exact hx (hba.subset (by simp))
      | cons_cons _ _ => exact hx (hab.subset (by simp))

/-- There is one first client. -/
theorem IsFirstClient.unique {w : Walk} {m : Node} (hnodup : w.events.Nodup)
    (hn : IsFirstClient w root n) (hm : IsFirstClient w root m) : n = m := by
  by_contra hne
  have hnm := hn.first m hm.reached hm.client (Ne.symm hne)
  have hmn := hm.first n hn.reached hn.client hne
  exact not_sublist_swap hnodup hnm hmn

/-! ## The finding -/

/-- What is put behind a source to disconnect a client. -/
def hookText (source client : String) : String :=
  (if source.isEmpty || Text.endsWith ['\n'] source.toList then "" else "\n") ++
    "\nafterAll(async () => \x7b\n  await " ++ client ++ ".$disconnect();\n\x7d);\n"

/-- The finding for a client of a name at a location. -/
def missingDisconnect (file : File) (s : Severity) (name : String) (loc : Location) :
    Diagnostic where
  rule := "prisma-client-disconnect"
  messageId := "missingDisconnect"
  message := "PrismaClient `" ++ name ++ "` is never disconnected; add `afterAll(() => " ++ name ++
    ".$disconnect())`."
  severity := s
  file := file.name
  line := loc.start.line
  column := loc.start.column + 1
  endLine := some loc.finish.line
  endColumn := some (loc.finish.column + 1)
  fix := some ⟨file.source.utf8ByteSize, file.source.utf8ByteSize, hookText file.source name⟩

variable {file : File} {s : Severity} {loc : Location} {before vs : List Visit}

theorem interpolate_missingDisconnect (name : String) :
    interpolate ("PrismaClient `\x7b\x7bname\x7d\x7d` is never disconnected; " ++
      "add `afterAll(() => \x7b\x7bname\x7d\x7d.$disconnect())`.") [("name", name)] =
    "PrismaClient `" ++ name ++ "` is never disconnected; add `afterAll(() => " ++ name ++
      ".$disconnect())`." := by
  have hpieces : ∀ p ∈ ["PrismaClient `".toList,
      "` is never disconnected; add `afterAll(() => ".toList, ".$disconnect())`.".toList],
      '\x7b' ∉ p := by decide
  rw [← String.toList_inj, toList_interpolate rfl hpieces]
  simp [List.intercalate]

theorem template?_missingDisconnect : prismaClientDisconnect.about.template? "missingDisconnect" =
    some ("PrismaClient `\x7b\x7bname\x7d\x7d` is never disconnected; " ++
      "add `afterAll(() => \x7b\x7bname\x7d\x7d.$disconnect())`.") := rfl

/-- The report on a client with a location is the finding with its name and its fix. -/
theorem found_client (n : Node) (name : String) :
    (Outcome.atNode n "missingDisconnect" [("name", name)]
      (some (disconnectHook file.source name))).found prismaClientDisconnect.about s file =
      (n.location?.map (missingDisconnect file s name)).toList := by
  rw [Outcome.found_atNode template?_missingDisconnect]
  simp only [Report.toDiagnostic, interpolate_missingDisconnect]
  rfl

/-- At the other visits something is kept, and nothing found. -/
theorem foundAt_of_tag_ne (hv : v.tag ≠ "Program:exit") :
    foundAt file before v (prismaClientDisconnect, s) = [] := by
  refine List.flatMap_eq_nil_iff.2 fun f hf => ?_
  have hmem := Rule.mem_of_mem_handlersFor hf
  simp only [prismaClientDisconnect] at hmem
  split at hmem
  · have hnothing : f before v = .nothing := by
      simp only [withState, clientHandlers, List.map_cons, List.map_nil, List.mem_cons,
        Prod.mk.injEq, hv, false_and, List.not_mem_nil, or_false] at hmem
      rcases hmem with ⟨-, rfl⟩ | ⟨-, rfl⟩
      · exact keepClient_fst _
      · exact noteDisconnect_fst _
    rw [takenBy, hnothing]
    rfl
  · cases hmem

/-- In a test there is one handler on the way out of programs. It reports what the others kept. -/
theorem exists_exit_handler (htest : file.isTest = true) : ∃ f : Handler,
    prismaClientDisconnect.handlersFor file "Program:exit" = [f] ∧
    ∀ before v, f before v =
      (reportClient file ⟨clientOf? before, disconnects before⟩ v).1 := by
  refine ⟨_, ?_, fun before v => congrArg (fun s => (reportClient file s v).1)
    (stateAfter_clientHandlers file before)⟩
  simp only [Rule.handlersFor, prismaClientDisconnect, htest, if_true]
  rfl

/-- What is found on the way out of a program, given all visits before. -/
theorem foundAt_exit (hv : v.tag = "Program:exit") (before : List Visit) :
    foundAt file before v (prismaClientDisconnect, s) =
      (if file.isTest = true ∧ disconnects before = false then
        (clientOf? before).bind fun c => c.1.location?.map (missingDisconnect file s c.2)
      else none).toList := by
  cases htest : file.isTest with
  | false =>
    rw [foundAt_of_no_handler (by simp [Rule.handlersFor, prismaClientDisconnect, htest])]
    simp
  | true =>
    obtain ⟨f, hf, heq⟩ := exists_exit_handler htest
    rw [foundAt_of_handler (hv ▸ hf), heq, reportClient]
    cases hclient : clientOf? before with
    | none => simp
    | some client =>
      obtain ⟨n, name⟩ := client
      cases hdisconnects : disconnects before with
      | true => simp
      | false => simpa [Option.filter] using found_client n name

/-- A program is left once, after all other visits. -/
theorem tag_ne_exit (h : t.Sound) (hnode : t.node = root)
    (honly : ∀ n, root.Reaches n → n.type = "Program" → n = root)
    (hplain : ∀ n, root.Reaches n → ¬":exit".toList <:+ n.type.toList)
    (hvs : t.visits [] = vs ++ [.exit root []]) : ∀ v ∈ vs, v.tag ≠ "Program:exit" := by
  intro v hv htag
  have hmem : v ∈ t.visits [] := hvs ▸ List.mem_append_left _ hv
  have hreach : root.Reaches v.node := hnode ▸ Tree.reaches_of_mem_visits h hmem
  obtain ⟨n, hn, he | he⟩ := (Tree.mem_events_iff h).1 (Tree.mem_events_of_mem_visits hmem)
  · have htype : v.tag = n.type := congrArg Prod.fst he
    refine hplain n (hnode ▸ hn) ?_
    rw [← htype, htag]
    decide
  · have htype : v.tag = n.type ++ ":exit" := congrArg Prod.fst he
    obtain rfl := honly n (hnode ▸ hn) ((String.append_left_inj _).1 (htype.symm.trans htag))
    have hnodup := Tree.nodup_events h
    rw [← Tree.map_event_visits [], hvs, List.map_append] at hnodup
    exact List.disjoint_of_nodup_append hnodup (List.mem_map_of_mem hv)
      (he ▸ List.mem_singleton_self _)

/-- What is found in a program, by what its visits tell. -/
theorem foundFrom_program (h : t.Sound) (hnode : t.node = root) (htype : root.type = "Program")
    (honly : ∀ n, root.Reaches n → n.type = "Program" → n = root)
    (hplain : ∀ n, root.Reaches n → ¬":exit".toList <:+ n.type.toList) :
    foundFrom file [(prismaClientDisconnect, s)] [] (t.visits []) =
      (if file.isTest = true ∧ (t.visits []).any isDisconnect = false then
        ((t.visits []).findSome? newClient?).bind fun c =>
          c.1.location?.map (missingDisconnect file s c.2)
      else none).toList := by
  obtain ⟨vs, hvs⟩ := t.exists_visits_eq []
  rw [hnode] at hvs
  have htag : (Visit.exit root []).tag = "Program:exit" := by
    rw [Visit.exit, htype]
    rfl
  have hbefore : foundFrom file [(prismaClientDisconnect, s)] [] vs = vs.flatMap fun _ => [] :=
    foundFrom_eq_flatMap
      (fun _ v hv => foundAt_of_tag_ne (tag_ne_exit h hnode honly hplain hvs v hv)) []
  have hclient : newClient? (.exit root []) = none := by simp [newClient?, htag]
  have hdisconnect : isDisconnect (.exit root []) = false := by simp [isDisconnect, htag]
  rw [hvs, foundFrom_append, hbefore, foundFrom, foundFrom, List.flatMap_singleton,
    foundAt_exit htag, List.append_nil, List.append_nil, clientOf?_reverse, disconnects_reverse,
    List.findSome?_append, List.any_append]
  simp [hclient, hdisconnect]

/-! ## The fix -/

/-- The hook is put behind the source. -/
theorem fixAll_missingDisconnect (file : File) (s : Severity) (name : String) (loc : Location) :
    Diagnostic.fixAll file.source [missingDisconnect file s name loc] =
      ⟨file.source ++ hookText file.source name, 1, 0⟩ := by
  have hwidth : Text.width Text.units8 file.source.toList = file.source.utf8ByteSize := by
    rw [Text.width_units8, String.ofList_toList]
  let hook : Fix :=
    ⟨file.source.utf8ByteSize, file.source.utf8ByteSize, hookText file.source name⟩
  have hplace : hook.place? 0 file.source.toList = some (file.source.toList, []) :=
    Fix.place?_eq_some_iff.2
      ⟨Nat.zero_le _, Nat.le_refl _, [], by simp, by rw [hwidth, Nat.zero_add], rfl⟩
  change Fix.applyAll file.source [hook] = _
  rw [Fix.applyAll, Fix.inOrder, List.mergeSort_singleton, List.foldl_cons, List.foldl_nil,
    Fix.Progress.add]
  simp [Fix.Progress.ofSource, hplace, hook]

/-! ## What is found -/

/-- The findings are on the first client of a walk, if it is never disconnected in a test. -/
structure ReportsClient (w : Walk) (root : Node) (file : File) (s : Severity)
    (found : List Diagnostic) : Prop where
  length_le : found.length ≤ 1
  length_eq_one_iff : found.length = 1 ↔ file.isTest = true ∧ ¬Disconnects root ∧
    ∃ n, IsFirstClient w root n ∧ n.location?.isSome = true
  /-- A finding is at the first client and names it, and its fix puts the hook for that name behind
  the source. -/
  shown : ∀ d ∈ found, ∃ n name loc, IsFirstClient w root n ∧ IsClientName root n name ∧
    n.location? = some loc ∧ d = missingDisconnect file s name loc ∧
    Diagnostic.fixAll file.source [d] = ⟨file.source ++ hookText file.source name, 1, 0⟩

theorem reportsClient_nil {w : Walk} (h : file.isTest = true → ¬Disconnects root →
    ∀ n, IsFirstClient w root n → n.location? = none) : ReportsClient w root file s [] where
  length_le := Nat.zero_le _
  length_eq_one_iff := by
    refine ⟨nofun, fun ⟨htest, hdisconnects, n, hn, hloc⟩ => ?_⟩
    rw [h htest hdisconnects n hn] at hloc
    cases hloc
  shown := nofun

theorem reportsClient_singleton {w : Walk} (htest : file.isTest = true)
    (hdisconnects : ¬Disconnects root) (hn : IsFirstClient w root n)
    (hname : IsClientName root n name) (hloc : n.location? = some loc) :
    ReportsClient w root file s [missingDisconnect file s name loc] where
  length_le := Nat.le_refl _
  length_eq_one_iff := ⟨fun _ => ⟨htest, hdisconnects, n, hn, by rw [hloc]; rfl⟩, fun _ => rfl⟩
  shown d hd := by
    obtain rfl := List.mem_singleton.1 hd
    exact ⟨n, name, loc, hn, hname, hloc, rfl, fixAll_missingDisconnect file s name loc⟩

/-- With no other rule on, and in a document with no program inside the program and no type that
reads like a visit on the way up, there is at most one finding. There is one if and only if the file
is a test, its first client has a location, and nothing is disconnected in a call of `afterAll`. -/
theorem client_found_iff_never_disconnected {l : Linter} {document : Json}
    (hsole : l.Sole prismaClientDisconnect s file document)
    (honly : ∀ n, (rootOf document).Reaches n → n.type = "Program" → n = rootOf document)
    (hplain : ∀ n, (rootOf document).Reaches n → ¬":exit".toList <:+ n.type.toList) :
    ∃ t found, Linter.program? document = some t ∧ l.lint file document = .ok found ∧
      ReportsClient (l.walk file t) (rootOf document) file s found := by
  obtain ⟨t, ht, hsound, hnode, hlint⟩ := hsole.exists_tree
  have hroot : (rootOf document).value.ordered = true := hsole.ordered
  have htype : (rootOf document).type = "Program" := by
    rw [rootOf, Node.type, hsole.program]
    rfl
  have hnodup : (l.walk file t).events.Nodup := by
    rw [l.walk_events]
    exact Tree.nodup_events hsound
  have hsorted : ∀ o : Option Diagnostic, o.toList.mergeSort Diagnostic.before = o.toList :=
    fun o => by cases o <;> simp
  rw [foundFrom_program hsound hnode htype honly hplain, hsorted] at hlint
  refine ⟨t, _, ht, hlint, ?_⟩
  split
  · next hcond =>
    obtain ⟨htest, hnot⟩ := hcond
    have hdisconnects : ¬Disconnects (rootOf document) := by
      rw [← any_isDisconnect_iff hsound hnode hroot, hnot]
      exact Bool.false_ne_true
    cases hclient : (t.visits []).findSome? newClient? with
    | none =>
      exact reportsClient_nil fun _ _ n hn =>
        absurd hn.client (not_isClient_of_findSome? hsound hnode hclient hn.reached)
    | some client =>
      obtain ⟨n, name⟩ := client
      obtain ⟨hfirst, hname⟩ := isFirstClient_of_findSome? hsound hnode hroot hclient
      rw [Option.bind_some]
      cases hloc : n.location? with
      | none => exact reportsClient_nil fun _ _ m hm => hm.unique hnodup hfirst ▸ hloc
      | some loc => exact reportsClient_singleton htest hdisconnects hfirst hname hloc
  · next hcond =>
    refine reportsClient_nil fun htest hdisconnects => absurd ⟨htest, ?_⟩ hcond
    rwa [← Bool.not_eq_true, any_isDisconnect_iff hsound hnode hroot]

/-- The binding of a new client to the name `db`. -/
def boundClient : Json :=
  .object [("id", .object [("name", .text "db"), ("type", .text "Identifier")]),
    ("init", .object [
      ("callee", .object [("name", .text "PrismaClient"), ("type", .text "Identifier")]),
      ("loc", .object [("end", .object [("column", .int 29), ("line", .int 1)]),
        ("start", .object [("column", .int 11), ("line", .int 1)])]),
      ("type", .text "NewExpression")]),
    ("type", .text "VariableDeclarator")]

/-- A program that does nothing else. -/
def clientProgram : Json := .object [("body", boundClient), ("type", .text "Program")]

/-- The trees of the name and of the client. -/
def clientTrees : List Tree :=
  [.mk ⟨.object [("name", .text "db"), ("type", .text "Identifier")],
      [.field "id", .field "body"]⟩ [],
    .mk ⟨.object [
        ("callee", .object [("name", .text "PrismaClient"), ("type", .text "Identifier")]),
        ("loc", .object [("end", .object [("column", .int 29), ("line", .int 1)]),
          ("start", .object [("column", .int 11), ("line", .int 1)])]),
        ("type", .text "NewExpression")], [.field "init", .field "body"]⟩
      [.mk ⟨.object [("name", .text "PrismaClient"), ("type", .text "Identifier")],
        [.field "callee", .field "init", .field "body"]⟩ []]]

theorem program?_clientProgram : Linter.program? clientProgram =
    some (.mk ⟨clientProgram, []⟩ [.mk ⟨boundClient, [.field "body"]⟩ clientTrees]) := by
  have hsort : clientTrees.mergeSort (fun a b => a.node.rank ≤ b.node.rank) = clientTrees :=
    List.mergeSort_of_pairwise (by decide)
  conv_rhs => rw [← hsort]
  simp [Linter.program?, clientProgram, boundClient, clientTrees, Tree.ofJson?, Tree.ofFields,
    Tree.node, nodeType?, Json.field?, Json.text?, List.lookup_cons, Node.plainFields, Node.type]

/-- A linter with this rule only. -/
def clientLinter : Linter := { rules := [prismaClientDisconnect] }

/-- The file of the test. -/
def clientTest : File := ⟨"src/user.test.ts", "const db = new PrismaClient();"⟩

theorem sole_clientLinter :
    clientLinter.Sole prismaClientDisconnect .error clientTest clientProgram where
  active := rfl
  heeded := by decide
  ordered := by decide
  program := by decide

theorem client_found_clientProgram :
    clientLinter.Sole prismaClientDisconnect .error clientTest clientProgram ∧
    (∀ n, (rootOf clientProgram).Reaches n → n.type = "Program" → n = rootOf clientProgram) ∧
    (∀ n, (rootOf clientProgram).Reaches n → ¬":exit".toList <:+ n.type.toList) ∧
    ∃ t, ReportsClient (clientLinter.walk clientTest t) (rootOf clientProgram) clientTest .error
      [missingDisconnect clientTest .error "db" ⟨⟨1, 11⟩, ⟨1, 29⟩⟩] := by
  have hsole := sole_clientLinter
  have honly : ∀ n, (rootOf clientProgram).Reaches n → n.type = "Program" →
      n = rootOf clientProgram := by
    have hway : ∀ n, (rootOf clientProgram).Reaches n → n.type = "Program" → n.way = [] :=
      forall_reaches_of_events hsole.ordered hsole.program (by
        rw [program?_clientProgram]
        decide +kernel)
    exact fun n hn htype => hn.eq_of_way hsole.ordered .refl (hway n hn htype)
  have hplain : ∀ n, (rootOf clientProgram).Reaches n → ¬":exit".toList <:+ n.type.toList :=
    forall_reaches_of_events hsole.ordered hsole.program (by
      rw [program?_clientProgram]
      decide +kernel)
  refine ⟨hsole, honly, hplain, ?_⟩
  obtain ⟨t, found, ht, hlint, hfound⟩ := client_found_iff_never_disconnected hsole honly hplain
  have hmade : clientLinter.made clientTest clientProgram =
      [missingDisconnect clientTest .error "db" ⟨⟨1, 11⟩, ⟨1, 29⟩⟩] := by
    rw [Linter.made, program?_clientProgram]
    decide +kernel
  rw [Linter.lint_eq (by rw [ht]; rfl), hmade, List.mergeSort_singleton] at hlint
  obtain rfl := Except.ok.inj hlint
  exact ⟨t, hfound⟩

end Steward.Lint
