import Steward.Proofs.Lint.Reported
import Steward.Proofs.Text.Replace

/-!
# Messages made of templates

A template is text with the places of values in it, each written as a name in double braces. The
values are put in one after the other, so that what was put in is gone through again for the names
that follow.

* `fill`: a template with the values put in all at once.
* `Undisturbed`, `interpolate_eq_fill`: one after the other comes to the same unless what stands
  between the places of a value spells its placeholder.
* `undisturbed_of_not_mem`: it does not where neither the text nor the values have opening braces.
* `interpolate_duplicate`: the message for a block that stands twice, whatever its values are.
* `put_in_verbatim`: what becomes of values in general, and of the values of a report on duplicates.
-/

namespace Steward.Lint

open Text Tool

/-! ## Templates -/

/-- The place of a value in a template: its name in double braces. -/
def placeholder (name : String) : List Char :=
  "\x7b\x7b".toList ++ name.toList ++ "\x7d\x7d".toList

/-- A part of a template: text of its own, or the place of a value. -/
inductive Part where
  | text (s : String)
  | hole (name : String)
deriving DecidableEq

/-- What stands for a part once the data are put in; the place of a value that is not among them
stays. -/
def Part.fill (data : List (String × String)) : Part → List Char
  | text s => s.toList
  | hole name => ((data.lookup name).map String.toList).getD (placeholder name)

/-- A template with the data put in, all at once. -/
def fill (data : List (String × String)) (parts : List Part) : List Char :=
  parts.flatMap (Part.fill data)

variable {data done : List (String × String)} {parts : List Part} {name value : String}

@[simp] theorem fill_cons (p : Part) : fill data (p :: parts) = p.fill data ++ fill data parts :=
  rfl

@[simp] theorem fill_append (parts' : List Part) :
    fill data (parts ++ parts') = fill data parts ++ fill data parts' :=
  List.flatMap_append

theorem lookup_eq_none_of_not_mem (h : name ∉ data.map Prod.fst) : data.lookup name = none := by
  rw [List.lookup_eq_none_iff]
  intro d hd
  rw [bne_iff_ne]
  rintro rfl
  exact h (List.mem_map_of_mem hd)

/-- Until its value is put in, a place stays. -/
theorem Part.fill_hole_of_not_mem (h : name ∉ data.map Prod.fst) :
    (hole name).fill data = placeholder name := by
  rw [fill, lookup_eq_none_of_not_mem h]
  rfl

/-- Its value, once put in, stands in its place. -/
theorem Part.fill_hole_concat (h : name ∉ data.map Prod.fst) :
    (hole name).fill (data ++ [(name, value)]) = value.toList := by
  rw [fill, List.lookup_append, lookup_eq_none_of_not_mem h, List.lookup_cons_self]
  rfl

/-- One more value changes what stands for its own places only. -/
theorem Part.fill_concat_of_ne {p : Part} (h : p ≠ .hole name) :
    p.fill (data ++ [(name, value)]) = p.fill data := by
  cases p with
  | text s => rfl
  | hole other =>
    have hne : (other == name) = false := beq_eq_false_iff_ne.2 fun heq => h (heq ▸ rfl)
    rw [fill, fill, List.lookup_append, List.lookup_cons, hne, List.lookup_nil, Option.or_none]

theorem fill_concat_of_not_mem (h : .hole name ∉ parts) :
    fill (data ++ [(name, value)]) parts = fill data parts := by
  induction parts with
  | nil => rfl
  | cons p parts ih =>
    rw [List.mem_cons, not_or] at h
    rw [fill_cons, fill_cons, Part.fill_concat_of_ne (Ne.symm h.1), ih h.2]

/-! ## Placeholders -/

theorem placeholder_eq (name : String) :
    placeholder name = '\x7b' :: '\x7b' :: (name.toList ++ ['\x7d', '\x7d']) := rfl

theorem placeholder_ne_nil (name : String) : placeholder name ≠ [] := List.cons_ne_nil _ _

/-- A placeholder does not start in a text and end in the place of its value behind it, for then it
would have its two braces further on. -/
theorem not_infix_append_dropLast {before : List Char} (hname : '\x7b' ∉ name.toList)
    (h : ¬ placeholder name <:+: before) :
    ¬ placeholder name <:+: before ++ (placeholder name).dropLast := by
  have hbrace : '\x7b' ∉ name.toList ++ ['\x7d', '\x7d'] := by simp [hname]
  intro hw
  rcases List.infix_append_iff_ne_nil.1 hw with hw | hw | ⟨l₁, l₂, hl₁, hl₂, heq, -, hpre⟩
  · exact h hw
  · have hle := hw.length_le
    have hpos := List.length_pos_iff.2 (placeholder_ne_nil name)
    rw [List.length_dropLast] at hle
    omega
  · have hstart := hpre.trans (List.dropLast_prefix _)
    have hends : name.toList ++ ['\x7d', '\x7d'] ≠ [] := by simp
    rw [placeholder_eq] at heq hstart
    generalize name.toList ++ ['\x7d', '\x7d'] = ends at hbrace hends heq hstart
    obtain ⟨d, l₂, rfl⟩ := List.exists_cons_of_ne_nil hl₂
    obtain ⟨rfl, hmore⟩ := List.cons_prefix_cons.1 hstart
    rcases l₁ with _ | ⟨d, _ | ⟨d', l₁⟩⟩
    · exact hl₁ rfl
    · -- What stands behind the braces would start with the second of them.
      obtain ⟨-, rfl⟩ : _ ∧ ends = l₂ := by simpa using heq
      obtain ⟨d', ends, rfl⟩ := List.exists_cons_of_ne_nil hends
      obtain ⟨rfl, -⟩ := List.cons_prefix_cons.1 hmore
      exact hbrace List.mem_cons_self
    · obtain ⟨-, -, rfl⟩ : _ ∧ _ ∧ ends = l₁ ++ '\x7b' :: l₂ := by simpa using heq
      exact hbrace (by simp)

/-! ## One value after the other -/

/-- No stretch of the template without a place of the name spells its placeholder, with the data put
in. -/
def NotSpelled (data : List (String × String)) (parts : List Part) (name : String) : Prop :=
  ∀ run, run <:+: parts → .hole name ∉ run → ¬ placeholder name <:+: fill data run

/-- Whenever a value is put in, its placeholder is spelled by nothing between its places: neither by
the text of the template nor by the values put in before. -/
def Undisturbed (data : List (String × String)) (parts : List Part) : Prop :=
  ∀ done name value rest, data = done ++ (name, value) :: rest → NotSpelled done parts name

/-- Replacing a placeholder that nothing else spells is putting the value in its places. -/
theorem replaceAll_fill (hname : '\x7b' ∉ name.toList) (hnew : name ∉ done.map Prod.fst)
    (h : NotSpelled done parts name) :
    replaceAll (placeholder name) value.toList (fill done parts) =
      fill (done ++ [(name, value)]) parts := by
  induction hn : parts.length using Nat.strongRecOn generalizing parts with
  | ind n ih =>
    subst hn
    by_cases hmem : .hole name ∈ parts
    · obtain ⟨run, rest, rfl, hrun⟩ := List.eq_append_cons_of_mem hmem
      have hfirst := not_infix_append_dropLast hname (h run List.infix_append_left hrun)
      have hrest : NotSpelled done rest name := fun run' hrun' =>
        h run' (hrun'.trans (List.suffix_append_of_suffix (List.suffix_cons _ _)).isInfix)
      have hshort : rest.length < (run ++ .hole name :: rest).length := by
        simp only [List.length_append, List.length_cons]
        omega
      rw [fill_append, fill_cons, Part.fill_hole_of_not_mem hnew, ← List.append_assoc,
        replaceAll_append_word value.toList _ (placeholder_ne_nil name) hfirst,
        ih _ hshort hrest rfl, fill_append, fill_cons, Part.fill_hole_concat hnew,
        fill_concat_of_not_mem hrun, List.append_assoc]
    · rw [replaceAll_of_free _ (h parts (List.infix_refl parts) hmem),
        fill_concat_of_not_mem hmem]

/-- Where nothing but their places spells the placeholders, the values are put in as if all at
once. -/
theorem interpolate_eq_fill (hnames : ∀ d ∈ data, '\x7b' ∉ d.1.toList)
    (hdistinct : (data.map Prod.fst).Nodup) (h : Undisturbed data parts) :
    interpolate (String.ofList (fill [] parts)) data = String.ofList (fill data parts) := by
  have hgo : ∀ rest done, data = done ++ rest →
      rest.foldl (fun text (d : String × String) =>
        replaceAll (placeholder d.1) d.2.toList text) (fill done parts) = fill data parts := by
    intro rest
    induction rest with
    | nil =>
      intro done hdata
      rw [hdata, List.append_nil]
      rfl
    | cons d rest ih =>
      intro done hdata
      have hd : d ∈ data := by simp [hdata]
      have hnew : d.1 ∉ done.map Prod.fst := by
        rw [hdata, List.map_append, List.map_cons] at hdistinct
        intro hmem
        exact (List.nodup_append.1 hdistinct).2.2 _ hmem _ List.mem_cons_self rfl
      rw [List.foldl_cons, replaceAll_fill (hnames d hd) hnew (h done d.1 d.2 rest hdata)]
      exact ih _ (by rw [hdata, List.append_assoc]; rfl)
  have htemplate : (String.ofList (fill [] parts)).toList = fill [] parts := String.toList_ofList
  rw [interpolate, htemplate]
  exact congrArg String.ofList (hgo data [] rfl)

/-! ## Text and values without braces -/

/-- Text without opening braces, or a place whose name has no braces. -/
def Part.IsPlain : Part → Prop
  | text s => '\x7b' ∉ s.toList
  | hole name => '\x7b' ∉ name.toList ∧ '\x7d' ∉ name.toList

/-- A word is not spelled across the end of a text without its first character. -/
theorem not_infix_append_of_not_mem {c : Char} {word a b : List Char} (ha : c ∉ a)
    (hb : ¬ c :: word <:+: b) : ¬ c :: word <:+: a ++ b := by
  intro h
  rcases List.infix_append_iff_ne_nil.1 h with h | h | ⟨l₁, l₂, hl₁, -, heq, hsuf, -⟩
  · exact ha (h.subset List.mem_cons_self)
  · exact hb h
  · obtain ⟨d, l₁, rfl⟩ := List.exists_cons_of_ne_nil hl₁
    obtain ⟨rfl, -⟩ := List.cons.inj heq
    exact ha (hsuf.subset List.mem_cons_self)

/-- The place of another name does not spell a placeholder, whatever comes behind it. -/
theorem not_infix_placeholder_append {other : String} {b : List Char} (hne : name ≠ other)
    (hname : '\x7d' ∉ name.toList) (hother : (Part.hole other).IsPlain)
    (hb : ¬ placeholder name <:+: b) : ¬ placeholder name <:+: placeholder other ++ b := by
  have hends : '\x7b' ∉ other.toList ++ ['\x7d', '\x7d'] := by simp [hother.1]
  rw [placeholder_eq other, List.cons_append, List.cons_append, List.infix_cons_iff,
    List.infix_cons_iff, not_or, not_or]
  refine ⟨fun h => ?_, fun h => ?_, not_infix_append_of_not_mem hends hb⟩
  · -- Both names stand before the first closing brace.
    obtain ⟨more, h⟩ := h
    simp only [placeholder_eq, List.cons_append, List.append_assoc, List.cons.injEq,
      true_and] at h
    have hcut := cut?_singleton_eq_some_iff.2 ⟨h, hother.2⟩
    rw [cut?_singleton_eq_some_iff.2 ⟨rfl, hname⟩] at hcut
    exact hne (String.toList_inj.1 (Prod.mk.inj (Option.some.inj hcut)).1)
  · rw [placeholder_eq, List.cons_prefix_cons] at h
    obtain ⟨d, ends, hd⟩ := List.exists_cons_of_ne_nil
      (List.append_ne_nil_of_right_ne_nil other.toList (List.cons_ne_nil '\x7d' ['\x7d']))
    rw [hd, List.cons_append, List.cons_prefix_cons] at h
    rw [hd, ← h.2.1] at hends
    exact hends List.mem_cons_self

theorem notSpelled_of_not_mem (hname : '\x7d' ∉ name.toList) (hparts : ∀ p ∈ parts, p.IsPlain)
    (hvalues : ∀ d ∈ done, '\x7b' ∉ d.2.toList) : NotSpelled done parts name := by
  intro run hrun hmem
  have hplain : ∀ p ∈ run, p.IsPlain := fun p hp => hparts p (hrun.subset hp)
  clear hrun
  induction run with
  | nil => exact fun h => placeholder_ne_nil name (List.eq_nil_of_infix_nil h)
  | cons p run ih =>
    rw [List.mem_cons, not_or] at hmem
    rw [List.forall_mem_cons] at hplain
    have hrest := ih hmem.2 hplain.2
    cases p with
    | text s => exact not_infix_append_of_not_mem hplain.1 hrest
    | hole other =>
      rw [fill_cons, Part.fill]
      cases hlookup : done.lookup other with
      | some v =>
        obtain ⟨before, after, rfl, -⟩ := List.lookup_eq_some_iff.1 hlookup
        exact not_infix_append_of_not_mem (hvalues (other, v) (by simp)) hrest
      | none =>
        have hne : name ≠ other := by
          rintro rfl
          exact hmem.1 rfl
        exact not_infix_placeholder_append hne hname hplain.1 hrest

/-- Values are put in undisturbed if the text of the template has no opening braces, the names no
braces, and no value but the last an opening one. -/
theorem undisturbed_of_not_mem (hnames : ∀ d ∈ data, '\x7d' ∉ d.1.toList)
    (hparts : ∀ p ∈ parts, p.IsPlain) (hvalues : ∀ d ∈ data.dropLast, '\x7b' ∉ d.2.toList) :
    Undisturbed data parts := by
  rintro done name value rest rfl
  refine notSpelled_of_not_mem (hnames (name, value) (by simp)) hparts fun d hd => hvalues d ?_
  rw [List.dropLast_append_cons]
  exact List.mem_append_left _ hd

/-! ## Blocks that stand twice -/

/-- The template for a block that stands twice. -/
def duplicateTemplate : String :=
  "\x7b\x7blines\x7d\x7d lines duplicated in " ++
    "\x7b\x7bother\x7d\x7d:\x7b\x7botherLine\x7d\x7d (jscpd)."

/-- What is to be said of a block of so many lines that stands in another file from a line on. -/
def duplicateMessage (lines : UInt32) (other : String) (otherLine : UInt32) : String :=
  decimal lines.toNat ++ " lines duplicated in " ++ other ++ ":" ++ decimal otherLine.toNat ++
    " (jscpd)."

theorem not_mem_numeral {c : Char} (hc : c.isDigit = false) (n : Nat) : c ∉ numeral n := by
  intro h
  rw [List.all_eq_true.1 (all_isDigit_numeral n) c h] at hc
  cases hc

/-- A placeholder that stands once in a text is replaced there. -/
theorem replaceAll_placeholder (before new : List Char) {rest : List Char}
    (hname : '\x7b' ∉ name.toList) (hbefore : '\x7b' ∉ before)
    (hrest : ¬ placeholder name <:+: rest) :
    replaceAll (placeholder name) new (before ++ placeholder name ++ rest) =
      before ++ new ++ rest := by
  have hfirst := not_infix_append_dropLast hname fun h =>
    hbefore (h.subset (placeholder_eq name ▸ List.mem_cons_self))
  rw [replaceAll_append_word new rest (placeholder_ne_nil name) hfirst,
    replaceAll_of_free new hrest]

/-- The number of lines and the line are put in as they are, and the name of the file with the line
in place of the placeholders of the line that it has. -/
theorem interpolate_duplicate (lines otherLine : UInt32) (other : String) :
    interpolate duplicateTemplate [("lines", decimal lines.toNat), ("other", other),
        ("otherLine", decimal otherLine.toNat)] =
      duplicateMessage lines (String.ofList (replaceAll (placeholder "otherLine")
        (numeral otherLine.toNat) other.toList)) otherLine := by
  have hbefore : '\x7b' ∉ numeral lines.toNat ++ " lines duplicated in ".toList := by
    have hdigits : '\x7b' ∉ numeral lines.toNat := not_mem_numeral rfl _
    simp [hdigits]
  have htemplate : duplicateTemplate.toList = [] ++ placeholder "lines" ++
      (" lines duplicated in ".toList ++ (placeholder "other" ++
        ':' :: (placeholder "otherLine" ++ " (jscpd).".toList))) := by
    decide
  have hlines := replaceAll_placeholder [] (numeral lines.toNat) (by decide)
    List.not_mem_nil (show ¬ placeholder "lines" <:+: " lines duplicated in ".toList ++
      (placeholder "other" ++ ':' :: (placeholder "otherLine" ++ " (jscpd).".toList)) by
      decide +kernel)
  have hother := replaceAll_placeholder _ other.toList (by decide) hbefore
    (show ¬ placeholder "other" <:+: ':' :: (placeholder "otherLine" ++ " (jscpd).".toList) by
      decide +kernel)
  have hotherLine := replaceAll_placeholder [] (numeral otherLine.toNat) (by decide)
    List.not_mem_nil (show ¬ placeholder "otherLine" <:+: " (jscpd).".toList by decide +kernel)
  rw [← String.toList_inj]
  calc (interpolate duplicateTemplate _).toList
    _ = replaceAll (placeholder "otherLine") (numeral otherLine.toNat)
          (replaceAll (placeholder "other") other.toList
            (replaceAll (placeholder "lines") (numeral lines.toNat)
              duplicateTemplate.toList)) := by
        simp [interpolate, decimal, placeholder]
    _ = replaceAll (placeholder "otherLine") (numeral otherLine.toNat)
          (numeral lines.toNat ++ " lines duplicated in ".toList ++ other.toList ++
            ':' :: (placeholder "otherLine" ++ " (jscpd).".toList)) := by
        rw [htemplate, hlines, List.nil_append, ← List.append_assoc, ← List.append_assoc, hother]
    _ = numeral lines.toNat ++ " lines duplicated in ".toList ++
          replaceAll (placeholder "otherLine") (numeral otherLine.toNat) other.toList ++
            ':' :: (numeral otherLine.toNat ++ " (jscpd).".toList) := by
        -- The colon keeps the name of the file from the place behind it.
        rw [replaceAll_append_cons _ _ (placeholder_ne_nil _) (by decide), placeholder_eq,
          replaceAll_append _ _ _ hbefore, ← placeholder_eq]
        exact congrArg _ (congrArg _ hotherLine)
    _ = _ := by
        simp [duplicateMessage, decimal]

theorem duplicateMessage_inj {lines otherLine : UInt32} {a b : String} :
    duplicateMessage lines a otherLine = duplicateMessage lines b otherLine ↔ a = b := by
  simp [duplicateMessage, ← String.toList_inj]

/-- No line makes up a part of the placeholder of the line. -/
theorem apart_numeral (n : Nat) : Apart (placeholder "otherLine") (numeral n) := by
  have hdigit : ∀ c ∈ numeral n, c.isDigit = true := List.all_eq_true.1 (all_isDigit_numeral n)
  have hfree : (placeholder "otherLine").all (!·.isDigit) = true := by decide
  have hnot : ∀ c ∈ numeral n, c ∉ placeholder "otherLine" := by
    intro c hc hmem
    have hyes := hdigit c hc
    have hno := List.all_eq_true.1 hfree c hmem
    rw [hyes] at hno
    cases hno
  refine ⟨fun c hc h => ?_, fun c hc h => ?_, fun h => ?_⟩
  · exact hnot c hc (List.mem_of_mem_head? h)
  · exact hnot c hc (List.mem_of_mem_getLast? h)
  · obtain ⟨c, hc⟩ := List.exists_mem_of_ne_nil _ (numeral_ne_nil n)
    exact hnot c hc (h.subset hc)

/-- The findings on blocks that stand twice, each with the message for its block. -/
theorem exists_clone_of_mem_found {config : Config} {root : String} {knip : Knip} {jscpd : Jscpd}
    {file : File} {document : Json} {found : List Diagnostic} {d : Diagnostic}
    (hfound : (Linter.ofProject config root knip jscpd).lint file document = .ok found)
    (hd : d ∈ found) (hrule : d.rule = "no-code-duplication") :
    ∃ c ∈ jscpd.clonesIn file.name root, d.line = c.here.start ∧
      d.message = duplicateMessage c.lines (String.ofList (replaceAll (placeholder "otherLine")
        (numeral c.other.start.toNat) c.other.file.toList)) c.other.start := by
  have hprogram : (Linter.program? document).isSome = true := by
    obtain ⟨-, t, ht, -⟩ := Linter.exists_tree_of_mem_found hfound hd
    rw [ht]
    rfl
  obtain ⟨report, hreport, template, htemplate, rfl⟩ := Linter.exists_report_of_mem_found
    (nodup_names config root knip jscpd) noCodeDuplication_mem (plain_noCodeDuplication root jscpd)
    atPrograms_noCodeDuplication hprogram hfound hd hrule
  obtain ⟨c, hc, rfl⟩ := List.mem_map.1 hreport
  have hduplicate : (noCodeDuplication root jscpd).about.template? (cloneReport c).messageId =
      some duplicateTemplate := rfl
  obtain rfl := Option.some.inj (hduplicate.symm.trans htemplate)
  refine ⟨c, hc, rfl, ?_⟩
  rw [← interpolate_duplicate]
  rfl

/-- Values are put in verbatim, as if all at once, where nothing but the places of the template
spells their placeholders; so they are where neither the text of the template nor the values have
opening braces. The message for a block that stands twice names the other file as it is exactly
where that name does not hold the placeholder of the line, which is put in after it: the placeholder
becomes the line in the name as well. -/
theorem put_in_verbatim {config : Config} {root : String} {knip : Knip} {jscpd : Jscpd}
    {file : File} {document : Json} {found : List Diagnostic}
    (hfound : (Linter.ofProject config root knip jscpd).lint file document = .ok found) :
    (∀ data parts, (∀ d ∈ data, '\x7b' ∉ d.1.toList) → (data.map Prod.fst).Nodup →
      Undisturbed data parts →
      interpolate (String.ofList (fill [] parts)) data = String.ofList (fill data parts)) ∧
    (∀ data parts, (∀ d ∈ data, '\x7d' ∉ d.1.toList) → (∀ p ∈ parts, p.IsPlain) →
      (∀ d ∈ data.dropLast, '\x7b' ∉ d.2.toList) → Undisturbed data parts) ∧
    ∀ d ∈ found, d.rule = "no-code-duplication" →
      ∃ c ∈ jscpd.clonesIn file.name root, d.line = c.here.start ∧
        d.message = duplicateMessage c.lines (String.ofList (replaceAll (placeholder "otherLine")
          (numeral c.other.start.toNat) c.other.file.toList)) c.other.start ∧
        (d.message = duplicateMessage c.lines c.other.file c.other.start ↔
          ¬ placeholder "otherLine" <:+: c.other.file.toList) := by
  refine ⟨fun data parts => interpolate_eq_fill, fun data parts => undisturbed_of_not_mem,
    fun d hd hrule => ?_⟩
  obtain ⟨c, hc, hline, hmessage⟩ := exists_clone_of_mem_found hfound hd hrule
  refine ⟨c, hc, hline, hmessage, ?_⟩
  rw [hmessage, duplicateMessage_inj, ← String.toList_inj, String.toList_ofList]
  exact (apart_numeral c.other.start.toNat).replaceAll_eq_self_iff (placeholder_ne_nil _)

/-- A report by jscpd on a block that stands in a file and in another one. -/
def twinJscpd (other : String) : Jscpd :=
  ⟨[⟨"typescript", 12, "", ⟨"a.ts", 1, 12⟩, ⟨other, 20, 31⟩⟩]⟩

/-- Values with placeholders in them: of their own name, and of one that was put in before. -/
theorem put_in_verbatim_twin :
    interpolate "\x7b\x7blines\x7d\x7d lines in \x7b\x7bother\x7d\x7d."
        [("lines", "12"), ("other", "\x7b\x7blines\x7d\x7d.ts")] =
      "12 lines in \x7b\x7blines\x7d\x7d.ts." ∧
    ∃ found, (Linter.ofProject {} "/repo" {} (twinJscpd "\x7b\x7bother\x7d\x7d.ts")).lint
        ⟨"/repo/a.ts", ""⟩ bareProgram = .ok found ∧
      ∃ d ∈ found, d.rule = "no-code-duplication" ∧
        d.message = "12 lines duplicated in \x7b\x7bother\x7d\x7d.ts:20 (jscpd)." := by
  have hfound : (Linter.ofProject {} "/repo" {} (twinJscpd "\x7b\x7bother\x7d\x7d.ts")).lint
      ⟨"/repo/a.ts", ""⟩ bareProgram = .ok _ :=
    Linter.lint_eq isSome_program?_bareProgram
  obtain ⟨hall, hplain, hclones⟩ := put_in_verbatim hfound
  constructor
  · have hparts : ∀ p ∈ [.hole "lines", .text " lines in ", .hole "other", .text "."],
        Part.IsPlain p := by
      simp [Part.IsPlain]
    have hfilled := hall [("lines", "12"), ("other", "\x7b\x7blines\x7d\x7d.ts")] _ (by decide)
      (by decide) (hplain _ _ (by decide) hparts (by decide))
    refine Eq.trans ?_ (hfilled.trans ?_)
    · exact congrArg (interpolate · _) (by decide)
    · decide
  · have hsame : isSameFile "a.ts" (File.mk "/repo/a.ts" "").name "/repo" = true := by decide
    obtain ⟨d, hd, template, -, hshown⟩ := (lint_showsSaid hsame rfl isSome_program?_bareProgram
      hfound).clones (by decide) _ (.first List.mem_cons_self rfl)
    have hrule : d.rule = "no-code-duplication" := by rw [hshown]; rfl
    obtain ⟨c, hc, -, -, hverbatim⟩ := hclones d hd hrule
    have hclone : (twinJscpd "\x7b\x7bother\x7d\x7d.ts").clonesIn "/repo/a.ts" "/repo" =
        [⟨⟨"a.ts", 1, 12⟩, ⟨"\x7b\x7bother\x7d\x7d.ts", 20, 31⟩, 12⟩] := by decide
    obtain rfl := List.mem_singleton.1 (hclone ▸ hc)
    refine ⟨_, hfound, d, hd, hrule, ?_⟩
    rw [hverbatim.2 (by decide +kernel)]
    decide

/-- A file whose name has the place of the line in it is named with the line there. -/
theorem line_put_in_name :
    ∃ d, (Linter.ofProject {} "/repo" {} (twinJscpd "src/\x7b\x7botherLine\x7d\x7d.ts")).lint
        ⟨"/repo/a.ts", ""⟩ bareProgram = .ok [d] ∧
      d.rule = "no-code-duplication" ∧
      d.message = "12 lines duplicated in src/20.ts:20 (jscpd)." ∧
      d.message ≠ duplicateMessage 12 "src/\x7b\x7botherLine\x7d\x7d.ts" 20 := by
  have hmade : ((Linter.ofProject {} "/repo" {}
      (twinJscpd "src/\x7b\x7botherLine\x7d\x7d.ts")).made ⟨"/repo/a.ts", ""⟩
        bareProgram).map (fun d => (d.rule, d.message)) =
        [("no-code-duplication", "12 lines duplicated in src/20.ts:20 (jscpd).")] := by
    rw [Linter.made, program?_bareProgram]
    decide +kernel
  obtain ⟨d, hd, hshown⟩ := List.map_eq_singleton_iff.1 hmade
  obtain ⟨hrule, hmessage⟩ := Prod.mk.inj hshown
  refine ⟨d, ?_, hrule, hmessage, ?_⟩
  · rw [Linter.lint_eq isSome_program?_bareProgram, hd, List.mergeSort_singleton]
  · rw [hmessage]
    decide

end Steward.Lint
