import Mathlib.Data.List.Nodup
import Steward.Lint.Fix
import Steward.Proofs.Lint.Order
import Steward.Proofs.Text.Offset

/-!
# What becomes of a source under fixes

Offsets of fixes are counted in bytes. Here they are compared with the bytes of the source itself:
`Fix.chosen` says which fixes are to be applied, and `Fix.spliced` what is to become of the bytes.

* `place?_eq_some_iff`: what is found where a fix can be applied.
* `Progress.Reads`: the part that was not read yet is the source from the cursor on. Every fix keeps
  it so.
* `foldl_add`: after any fixes the chosen ones are applied, and nothing else.
* `inOrder_eq_of_perm`: fixes with different starts are applied in one order only.
* `toByteArray_output`: the bytes that come out.
* `applyAll_splices`: all of this for whole lists of fixes.
-/

namespace Steward.Lint.Fix

open Text

/-! ## Fixes that can be applied -/

variable {source : String} {cursor : Nat} {rest kept after : List Char} {f : Fix} {fixes : List Fix}

/-- The fix is about a part of the source, which starts and ends with whole characters. -/
structure Fits (source : String) (f : Fix) : Prop where
  ordered : f.start ≤ f.finish
  start : IsOffset source f.start
  finish : IsOffset source f.finish

instance (source : String) (f : Fix) : Decidable (f.Fits source) :=
  decidable_of_iff (f.start ≤ f.finish ∧ IsOffset source f.start ∧ IsOffset source f.finish)
    ⟨fun h => ⟨h.1, h.2.1, h.2.2⟩, fun h => ⟨h.ordered, h.start, h.finish⟩⟩

theorem place?_eq_some_iff : f.place? cursor rest = some (kept, after) ↔
    cursor ≤ f.start ∧ f.start ≤ f.finish ∧ ∃ cut, rest = kept ++ cut ++ after ∧
      cursor + width units8 kept = f.start ∧ f.start + width units8 cut = f.finish := by
  unfold place?
  by_cases hbad : f.start < cursor ∨ f.finish < f.start
  · rw [if_pos hbad]
    simp only [Option.bind_eq_bind, Option.bind_none, reduceCtorEq, false_iff]
    rintro ⟨hstart, hfinish, -⟩
    omega
  · have hgood : cursor ≤ f.start ∧ f.start ≤ f.finish := by omega
    rw [if_neg hbad]
    simp only [Option.bind_eq_bind, Option.pure_def, Option.bind_eq_some_iff, Option.some.injEq,
      Prod.mk.injEq, Prod.exists, cutAt?_eq_some_iff units8_pos, hgood, true_and]
    constructor
    · rintro ⟨kept', rest', ⟨hrest, hkept⟩, cut, after', ⟨hcut, hwidth⟩, rfl, rfl⟩
      refine ⟨cut, by rw [hrest, hcut, List.append_assoc], by omega, by omega⟩
    · rintro ⟨cut, hrest, hkept, hwidth⟩
      refine ⟨kept, cut ++ after, ⟨by rw [hrest, List.append_assoc], by omega⟩, cut, after,
        ⟨rfl, by omega⟩, rfl, rfl⟩

/-! ## Progress -/

/-- What was not read yet is the source from the cursor on. -/
def Progress.Reads (source : String) (p : Progress) : Prop :=
  ∃ before, source.toList = before ++ p.rest ∧ width units8 before = p.cursor

variable {p : Progress}

theorem reads_ofSource (source : String) : (Progress.ofSource source.toList).Reads source :=
  ⟨[], rfl, rfl⟩

theorem Progress.Reads.isOffset (h : p.Reads source) : IsOffset source p.cursor := by
  obtain ⟨before, hsource, hwidth⟩ := h
  exact isOffset_iff.2 ⟨before, p.rest, hsource, hwidth⟩

theorem Progress.Reads.bytes_rest (h : p.Reads source) : (String.ofList p.rest).toByteArray =
    source.toByteArray.extract p.cursor source.toByteArray.size := by
  obtain ⟨before, hsource, hwidth⟩ := h
  have hsize : source.toByteArray.size = width units8 before + width units8 p.rest := by
    rw [String.size_toByteArray, ← width_append, ← hsource, width_units8, String.ofList_toList]
  rw [hsize, ← hwidth]
  exact (extract_eq (by rw [hsource, List.append_nil])).symm

/-- A fix is applied where it fits and starts no earlier than the cursor. -/
theorem Progress.Reads.place?_isSome_iff (h : p.Reads source) :
    (f.place? p.cursor p.rest).isSome ↔ f.Fits source ∧ p.cursor ≤ f.start := by
  obtain ⟨before, hsource, hwidth⟩ := h
  simp only [Option.isSome_iff_exists, Prod.exists, place?_eq_some_iff]
  constructor
  · rintro ⟨kept, after, hstart, hfinish, cut, hrest, hkept, hcut⟩
    refine ⟨⟨hfinish, isOffset_iff.2 ⟨before ++ kept, cut ++ after, ?_, ?_⟩,
      isOffset_iff.2 ⟨before ++ kept ++ cut, after, ?_, ?_⟩⟩, hstart⟩
    · rw [hsource, hrest]
      simp
    · rw [width_append]
      omega
    · rw [hsource, hrest]
      simp
    · rw [width_append, width_append]
      omega
  · rintro ⟨hfits, hstart⟩
    obtain ⟨toStart, fromStart, hs, hws⟩ := isOffset_iff.1 hfits.start
    obtain ⟨toFinish, fromFinish, hf, hwf⟩ := isOffset_iff.1 hfits.finish
    have hordered := hfits.ordered
    -- Three cuts of one source, at the cursor, the start and the end, each in what the last leaves.
    obtain ⟨kept, rfl, hrest⟩ := exists_mid (hsource.symm.trans hs) (by omega)
    obtain ⟨cut, rfl, hfrom⟩ := exists_mid (hs.symm.trans hf) (by omega)
    rw [width_append] at hws hwf
    refine ⟨kept, fromFinish, hstart, hordered, cut, ?_, by omega, ?_⟩
    · rw [hrest, hfrom, List.append_assoc]
    · rw [width_append] at hwf
      omega

/-- What one fix leaves of the source where it is applied: the cursor is behind it. -/
theorem Progress.Reads.add_of_fits (h : p.Reads source) (hfits : f.Fits source)
    (hstart : p.cursor ≤ f.start) : ∃ kept after, f.place? p.cursor p.rest = some (kept, after) ∧
      (p.add f).Reads source ∧
      (String.ofList kept).toByteArray = source.toByteArray.extract p.cursor f.start := by
  obtain ⟨⟨kept, after⟩, hplace⟩ :=
    Option.isSome_iff_exists.1 (h.place?_isSome_iff.2 ⟨hfits, hstart⟩)
  obtain ⟨-, -, cut, hrest, hkept, hcut⟩ := place?_eq_some_iff.1 hplace
  obtain ⟨before, hsource, hwidth⟩ := h
  refine ⟨kept, after, hplace, ⟨before ++ kept ++ cut, ?_, ?_⟩, ?_⟩
  · rw [add, hplace, hsource, hrest]
    simp
  · rw [add, hplace, width_append, width_append]
    simp only
    omega
  · rw [hrest, ← List.append_assoc, ← List.append_assoc, List.append_assoc _ cut] at hsource
    rw [← extract_eq hsource, hwidth, hkept]

/-- A fix that is skipped leaves all as it was. -/
theorem Progress.Reads.add_of_not_fits (h : p.Reads source)
    (hno : ¬(f.Fits source ∧ p.cursor ≤ f.start)) :
    p.add f = { p with skipped := p.skipped + 1 } := by
  rw [← h.place?_isSome_iff, Option.not_isSome_iff_eq_none] at hno
  rw [add, hno]

/-! ## Many fixes -/

/-- The fixes that are to be applied from an offset on: each that fits and starts no earlier than
the one before it ends. -/
def chosen (source : String) : (cursor : Nat) → List Fix → List Fix
  | _, [] => []
  | cursor, f :: fixes =>
    if f.Fits source ∧ cursor ≤ f.start then f :: chosen source f.finish fixes
    else chosen source cursor fixes

/-- The bytes of a source from an offset on, with the texts of fixes in place of what stands between
their offsets. -/
def spliced (source : ByteArray) : (cursor : Nat) → List Fix → ByteArray
  | cursor, [] => source.extract cursor source.size
  | cursor, f :: fixes =>
    source.extract cursor f.start ++ f.text.toByteArray ++ spliced source f.finish fixes

/-- Where the last of the fixes ends. -/
def reached (cursor : Nat) (fixes : List Fix) : Nat :=
  (fixes.getLast?.map finish).getD cursor

@[simp] theorem reached_cons (cursor : Nat) (f : Fix) (fixes : List Fix) :
    reached cursor (f :: fixes) = reached f.finish fixes := by
  cases fixes with
  | nil => rfl
  | cons g fixes =>
    rw [reached, reached, List.getLast?_cons_cons]
    cases hlast : (g :: fixes).getLast? with
    | none => simp at hlast
    | some last => rfl

/-- What fixes leave of a source. -/
structure Progress.Leads (source : String) (p : Progress) (fixes : List Fix) (q : Progress) :
    Prop where
  reads : q.Reads source
  cursor : q.cursor = reached p.cursor (chosen source p.cursor fixes)
  applied : q.applied = p.applied + (chosen source p.cursor fixes).length
  total : q.applied + q.skipped = p.applied + p.skipped + fixes.length
  bytes : (String.ofList (q.written ++ q.rest)).toByteArray =
    (String.ofList p.written).toByteArray ++
      spliced source.toByteArray p.cursor (chosen source p.cursor fixes)

theorem Progress.Reads.leads_nil (h : p.Reads source) : p.Leads source [] p where
  reads := h
  cursor := rfl
  applied := rfl
  total := rfl
  bytes := by rw [String.ofList_append, String.toByteArray_append, h.bytes_rest, chosen, spliced]

theorem Progress.Reads.leads_applied (h : p.Reads source) (hfits : f.Fits source)
    (hstart : p.cursor ≤ f.start) {q : Progress} (hq : (p.add f).Leads source fixes q) :
    p.Leads source (f :: fixes) q := by
  obtain ⟨kept, after, hplace, -, hkept⟩ := h.add_of_fits hfits hstart
  have hadd : p.add f = { p with
      written := p.written ++ kept ++ f.text.toList, cursor := f.finish, rest := after
      applied := p.applied + 1 } := by rw [add, hplace]
  have hchosen : chosen source p.cursor (f :: fixes) = f :: chosen source f.finish fixes := by
    rw [chosen, if_pos ⟨hfits, hstart⟩]
  rw [hadd] at hq
  have hcursor := hq.cursor
  have happlied := hq.applied
  have htotal := hq.total
  have hbytes := hq.bytes
  simp only at hcursor happlied htotal hbytes
  refine ⟨hq.reads, ?_, ?_, ?_, ?_⟩
  · rw [hchosen, reached_cons, hcursor]
  · rw [hchosen, List.length_cons, happlied]
    omega
  · rw [List.length_cons, htotal]
    omega
  · rw [hchosen, spliced, hbytes, ← hkept]
    simp only [String.ofList_append, String.toByteArray_append, String.ofList_toList,
      ByteArray.append_assoc]

theorem Progress.Reads.leads_skipped (h : p.Reads source)
    (hno : ¬(f.Fits source ∧ p.cursor ≤ f.start)) {q : Progress}
    (hq : (p.add f).Leads source fixes q) : p.Leads source (f :: fixes) q := by
  have hchosen : chosen source p.cursor (f :: fixes) = chosen source p.cursor fixes := by
    rw [chosen, if_neg hno]
  rw [h.add_of_not_fits hno] at hq
  have htotal := hq.total
  refine ⟨hq.reads, ?_, ?_, ?_, ?_⟩
  · rw [hchosen]
    exact hq.cursor
  · rw [hchosen]
    exact hq.applied
  · rw [List.length_cons, htotal]
    simp only
    omega
  · rw [hchosen]
    exact hq.bytes

theorem foldl_add (h : p.Reads source) (fixes : List Fix) :
    p.Leads source fixes (fixes.foldl Progress.add p) := by
  -- On the fixes that are left; that the source is read up to the cursor carries it from one fix to
  -- the next.
  induction fixes generalizing p with
  | nil => exact h.leads_nil
  | cons f fixes ih =>
    by_cases hfits : f.Fits source ∧ p.cursor ≤ f.start
    · obtain ⟨_, _, _, hreads, _⟩ := h.add_of_fits hfits.1 hfits.2
      exact h.leads_applied hfits.1 hfits.2 (ih hreads)
    · refine h.leads_skipped hfits (ih ?_)
      rw [h.add_of_not_fits hfits]
      exact h

/-! ## The fixes that are chosen -/

theorem fits_of_mem_chosen {fixes : List Fix} (hf : f ∈ chosen source cursor fixes) :
    f.Fits source ∧ cursor ≤ f.start := by
  induction fixes generalizing cursor with
  | nil => cases hf
  | cons g fixes ih =>
    rw [chosen] at hf
    split at hf
    · next hg =>
      rcases List.mem_cons.1 hf with rfl | hf
      · exact hg
      · obtain ⟨hfits, hlater⟩ := ih hf
        have hordered := hg.1.ordered
        exact ⟨hfits, by omega⟩
    · exact ih hf

/-- No two fixes that are chosen overlap. -/
theorem pairwise_chosen (source : String) (cursor : Nat) (fixes : List Fix) :
    (chosen source cursor fixes).Pairwise fun f g => f.finish ≤ g.start := by
  induction fixes generalizing cursor with
  | nil => exact .nil
  | cons f fixes ih =>
    rw [chosen]
    split
    · exact .cons (fun g hg => (fits_of_mem_chosen hg).2) (ih f.finish)
    · exact ih cursor

/-! ## The order of fixes -/

theorem startsBefore_trans (f g k : Fix) (h : decide (f.start ≤ g.start) = true)
    (h' : decide (g.start ≤ k.start) = true) : decide (f.start ≤ k.start) = true := by
  simp only [decide_eq_true_eq] at *
  omega

theorem startsBefore_total (f g : Fix) :
    (decide (f.start ≤ g.start) || decide (g.start ≤ f.start)) = true := by
  simp only [Bool.or_eq_true, decide_eq_true_eq]
  omega

theorem pairwise_inOrder (fixes : List Fix) :
    (inOrder fixes).Pairwise fun f g => f.start ≤ g.start := by
  have hsorted : (inOrder fixes).Pairwise fun f g => decide (f.start ≤ g.start) = true :=
    List.pairwise_mergeSort startsBefore_trans startsBefore_total fixes
  exact hsorted.imp of_decide_eq_true

/-- Fixes of one start keep their order. -/
theorem filter_inOrder (n : Nat) (fixes : List Fix) :
    (inOrder fixes).filter (·.start = n) = fixes.filter (·.start = n) := by
  refine filter_mergeSort startsBefore_trans startsBefore_total (fun f g hf hg => ?_) fixes
  simp only [decide_eq_true_eq] at *
  omega

/-- Fixes with different starts have one order. -/
theorem inOrder_eq_of_perm {fixes' : List Fix} (h : fixes'.Perm fixes)
    (hstarts : (fixes.map start).Nodup) : inOrder fixes' = inOrder fixes := by
  refine List.Perm.eq_of_pairwise ?_ (pairwise_inOrder fixes') (pairwise_inOrder fixes) ?_
  · intro f g hf hg hle hge
    have hmemf : f ∈ fixes := h.mem_iff.1 (List.mem_mergeSort.1 hf)
    have hmemg : g ∈ fixes := List.mem_mergeSort.1 hg
    exact List.inj_on_of_nodup_map hstarts hmemf hmemg (Nat.le_antisymm hle hge)
  · exact (List.mergeSort_perm fixes' _).trans (h.trans (List.mergeSort_perm fixes _).symm)

theorem length_inOrder (fixes : List Fix) : (inOrder fixes).length = fixes.length :=
  List.length_mergeSort fixes

/-! ## Whole lists of fixes -/

section
variable (source : String) (fixes : List Fix)

theorem applied_applyAll :
    (applyAll source fixes).applied = (chosen source 0 (inOrder fixes)).length := by
  have hcount := (foldl_add (reads_ofSource source) (inOrder fixes)).applied
  simp only [Progress.ofSource, Nat.zero_add] at hcount
  exact hcount

theorem applied_add_skipped :
    (applyAll source fixes).applied + (applyAll source fixes).skipped = fixes.length := by
  have hcount := (foldl_add (reads_ofSource source) (inOrder fixes)).total
  simp only [Progress.ofSource, Nat.zero_add] at hcount
  exact hcount.trans (length_inOrder fixes)

theorem toByteArray_output : (applyAll source fixes).output.toByteArray =
    spliced source.toByteArray 0 (chosen source 0 (inOrder fixes)) := by
  have hbytes := (foldl_add (reads_ofSource source) (inOrder fixes)).bytes
  simp only [Progress.ofSource, String.ofList_nil, String.toByteArray_empty,
    ByteArray.empty_append] at hbytes
  exact hbytes

theorem output_of_none_applied (h : (applyAll source fixes).applied = 0) :
    (applyAll source fixes).output = source := by
  have hbytes := toByteArray_output source fixes
  rw [applied_applyAll] at h
  rw [List.eq_nil_of_length_eq_zero h, spliced] at hbytes
  rw [← String.toByteArray_inj, hbytes, ByteArray.extract_zero_size]

end

/-- Fixes are taken in the order of their starts, and each is applied if it fits and starts no
earlier than the last one that was applied ends; the source is never cut anywhere else. What comes
out is the source with the texts of the applied fixes in place of what stands between their
offsets. -/
theorem applyAll_splices (source : String) (fixes : List Fix) :
    let ordered := inOrder fixes
    let applied := chosen source 0 ordered
    let outcome := applyAll source fixes
    (ordered.Pairwise (fun f g => f.start ≤ g.start) ∧
      ∀ n, ordered.filter (·.start = n) = fixes.filter (·.start = n)) ∧
    (∀ n, let p := (ordered.take n).foldl Progress.add (.ofSource source.toList)
      p.cursor = reached 0 (chosen source 0 (ordered.take n)) ∧ IsOffset source p.cursor ∧
      (String.ofList p.rest).toByteArray =
        source.toByteArray.extract p.cursor source.toByteArray.size ∧
      ∀ f : Fix, (f.place? p.cursor p.rest).isSome ↔ f.Fits source ∧ p.cursor ≤ f.start) ∧
    ((∀ f ∈ applied, f.Fits source) ∧ applied.Pairwise fun f g => f.finish ≤ g.start) ∧
    outcome.applied = applied.length ∧ outcome.applied + outcome.skipped = fixes.length ∧
    outcome.output.toByteArray = spliced source.toByteArray 0 applied ∧
    (outcome.applied = 0 → outcome.output = source) ∧
    ∀ fixes', fixes'.Perm fixes → (fixes.map start).Nodup → applyAll source fixes' = outcome := by
  intro ordered applied outcome
  refine ⟨⟨pairwise_inOrder fixes, fun n => filter_inOrder n fixes⟩, ?_,
    ⟨fun f hf => (fits_of_mem_chosen hf).1, pairwise_chosen source 0 ordered⟩,
    applied_applyAll source fixes, applied_add_skipped source fixes,
    toByteArray_output source fixes, output_of_none_applied source fixes, ?_⟩
  · intro n
    have hseen := foldl_add (reads_ofSource source) (ordered.take n)
    exact ⟨hseen.cursor, hseen.reads.isOffset, hseen.reads.bytes_rest,
      fun f => hseen.reads.place?_isSome_iff⟩
  · intro fixes' hperm hstarts
    show applyAll source fixes' = applyAll source fixes
    rw [applyAll, inOrder_eq_of_perm hperm hstarts, applyAll]

/-- Fixes of a text whose second character takes two bytes. One starts inside it, one overlaps the
one before it, and one ends before it starts. -/
def mixed : List Fix := [⟨2, 3, "x"⟩, ⟨3, 4, "B"⟩, ⟨0, 1, "A"⟩, ⟨0, 3, "Z"⟩, ⟨4, 2, ""⟩]

theorem applyAll_splices_mixed :
    (applyAll "aéb" mixed).output.toByteArray =
        spliced "aéb".toByteArray 0 [⟨0, 1, "A"⟩, ⟨3, 4, "B"⟩] ∧
      (applyAll "aéb" mixed).applied + (applyAll "aéb" mixed).skipped = 5 ∧
      (applyAll "abc" [⟨2, 10, "Z"⟩]).output = "abc" ∧
      applyAll "abc" [⟨0, 1, "A"⟩, ⟨2, 3, "C"⟩] = applyAll "abc" [⟨2, 3, "C"⟩, ⟨0, 1, "A"⟩] := by
  obtain ⟨-, -, -, -, htotal, hbytes, -, -⟩ := applyAll_splices "aéb" mixed
  obtain ⟨-, -, -, -, -, -, hnone, -⟩ := applyAll_splices "abc" [⟨2, 10, "Z"⟩]
  obtain ⟨-, -, -, -, -, -, -, hperm⟩ := applyAll_splices "abc" [⟨2, 3, "C"⟩, ⟨0, 1, "A"⟩]
  have hordered : inOrder mixed =
      [⟨0, 1, "A"⟩, ⟨0, 3, "Z"⟩, ⟨2, 3, "x"⟩, ⟨3, 4, "B"⟩, ⟨4, 2, ""⟩] := by
    simp [inOrder, mixed, List.mergeSort, List.MergeSort.Internal.splitInTwo]
  have hchosen : chosen "aéb" 0 (inOrder mixed) = [⟨0, 1, "A"⟩, ⟨3, 4, "B"⟩] := by
    rw [hordered]
    decide +kernel
  rw [hchosen] at hbytes
  have hbeyond : (applyAll "abc" [⟨2, 10, "Z"⟩]).applied = 0 := by
    rw [applyAll, inOrder, List.mergeSort_singleton]
    decide +kernel
  exact ⟨hbytes, htotal, hnone hbeyond, hperm _ (.swap ..) (by decide)⟩

end Steward.Lint.Fix
