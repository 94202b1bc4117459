import Steward.Proofs.Output.PanicLines
import Steward.Proofs.Output.RustcLines

/-!
# The compiler's output is read block by block

A header and the lines behind it, up to the next header or summary, are a block. Of these lines the
first with a place gives the place, and each of the others may give the title, on either side of it;
nothing that stands outside of a block tells anything.

* `gathers_reader`: the reader gathers the lines of a block.
* `foldl_add`: what is gathered of a block.
* `IsTitle`, `Tells`, `tells_iff`: what a block tells.
* `blocks_told`: an output tells what its blocks tell.
-/

namespace Steward.Output.Rustc

open Text
open CargoTest (number toNat_position)

/-! ## The reader -/

/-- How blocks are gathered. -/
def gathering : Gathering Block where
  mark? line := if isSummary line then some none else (header? line).map (some ∘ Block.ofHeader)
  add := Block.add
  give? := Block.annotation?

theorem gathers_reader : reader.Gathers gathering where
  start := rfl
  step last line := by
    cases hsummary : isSummary line with
    | true => simp [reader, gathering, done, hsummary]
    | false => cases hheader : header? line <;> simp [reader, gathering, done, hsummary, hheader]
  finish _ := rfl

/-- The line is a header, and no summary. -/
def Heads (line : List Char) (h : Header) : Prop := IsHeader line h ∧ ¬IsSummary line

/-- The line is the first that does not belong to the block before it. -/
def EndsBlock (line : List Char) : Prop := (∃ h, Heads line h) ∨ IsSummary line

variable {line : List Char} {h : Header} {b : Block} {p : Place}
  {ls after body others : List (List Char)}

theorem mark?_of_heads (hline : Heads line h) :
    gathering.mark? line = some (some (Block.ofHeader h)) := by
  have hsummary : isSummary line = false := by
    rw [Bool.eq_false_iff, Ne, isSummary_iff]
    exact hline.2
  simp [gathering, hsummary, header?_eq_some_iff.2 hline.1]

theorem exists_heads_of_mark? (hmark : gathering.mark? line = some (some b)) :
    ∃ h, Heads line h := by
  cases hsummary : isSummary line with
  | true => simp [gathering, hsummary] at hmark
  | false =>
    have hheader : ∃ h, header? line = some h := by
      cases hheader : header? line with
      | none => simp [gathering, hsummary, hheader] at hmark
      | some h => exact ⟨h, rfl⟩
    obtain ⟨h, hheader⟩ := hheader
    refine ⟨h, header?_eq_some_iff.1 hheader, fun hsum => ?_⟩
    rw [isSummary_iff.2 hsum] at hsummary
    cases hsummary

theorem isSome_mark?_iff : (gathering.mark? line).isSome ↔ EndsBlock line := by
  constructor
  · intro hmark
    obtain ⟨next, hnext⟩ := Option.isSome_iff_exists.1 hmark
    cases next with
    | some b => exact .inl (exists_heads_of_mark? hnext)
    | none =>
      refine .inr (isSummary_iff.1 ?_)
      cases hsummary : isSummary line with
      | true => rfl
      | false => simp [gathering, hsummary] at hnext
  · rintro (⟨h, hline⟩ | hsum)
    · rw [mark?_of_heads hline]
      rfl
    · simp [gathering, isSummary_iff.2 hsum]

/-! ## The lines of a block -/

theorem add_of_place (hb : b.place = none) (hline : place? line = some p) :
    b.add line = { b with place := some p } := by
  simp [Block.add, hb, hline]

theorem add_of_no_place (hb : b.place.isSome ∨ place? line = none) :
    b.add line = { b with title := b.title.or (lint? line) } := by
  unfold Block.add
  split
  · next p hplace hline => simp [hplace, hline] at hb
  · rfl

/-- Lines that give no place, or find one, may give the title. -/
theorem foldl_add_of_no_place (hb : b.place.isSome ∨ ∀ l ∈ ls, place? l = none) :
    ls.foldl Block.add b = { b with title := b.title.or (ls.findSome? lint?) } := by
  induction ls generalizing b with
  | nil => simp
  | cons line ls ih =>
    have hline : b.place.isSome ∨ place? line = none := hb.imp_right fun hls =>
      hls line List.mem_cons_self
    have hrest : b.place.isSome ∨ ∀ l ∈ ls, place? l = none := hb.imp_right fun hls l hl =>
      hls l (List.mem_cons_of_mem line hl)
    rw [List.foldl_cons, add_of_no_place hline,
      ih (b := { b with title := b.title.or (lint? line) }) hrest, List.findSome?_cons,
      Option.or_assoc]
    cases lint? line <;> rfl

/-- The first place is that of the block, and all other lines may give the title. -/
theorem foldl_add {before : List (List Char)} (hbefore : ∀ l ∈ before, place? l = none)
    (hline : place? line = some p) :
    (before ++ line :: after).foldl Block.add (Block.ofHeader h) =
      ⟨h, h.code.or ((before ++ after).findSome? lint?), some p⟩ := by
  rw [List.foldl_append, List.foldl_cons, foldl_add_of_no_place (.inr hbefore),
    add_of_place rfl hline, foldl_add_of_no_place (.inl rfl), List.findSome?_append,
    Option.or_assoc]
  rfl

/-! ## What a block tells -/

/-- The title of a header's block, given the lines that are not its place: the code of the header,
or else the lint that the first of these lines names that names one. -/
inductive IsTitle (h : Header) (others : List (List Char)) : Option (List Char) → Prop where
  | code {code : List Char} (hcode : h.code = some code) : IsTitle h others (some code)
  | note {earlier later : List (List Char)} {note lint : List Char} (hcode : h.code = none)
      (hothers : others = earlier ++ note :: later)
      (hearlier : ∀ l ∈ earlier, ∀ lint, ¬NamesLint l lint) (hnote : NamesLint note lint) :
      IsTitle h others (some lint)
  | untitled (hcode : h.code = none) (hothers : ∀ l ∈ others, ∀ lint, ¬NamesLint l lint) :
      IsTitle h others none

theorem lint?_eq_none_iff : lint? line = none ↔ ∀ lint, ¬NamesLint line lint := by
  simp only [Option.eq_none_iff_forall_not_mem, Option.mem_def, lint?_eq_some_iff]

theorem isTitle_iff {title : Option (List Char)} :
    IsTitle h others title ↔ title = h.code.or (others.findSome? lint?) := by
  constructor
  · intro htitle
    cases htitle with
    | code hcode => rw [hcode, Option.some_or]
    | note hcode hothers hearlier hnote =>
      rw [hcode, Option.none_or, eq_comm, List.findSome?_eq_some_iff]
      exact ⟨_, _, _, hothers, lint?_eq_some_iff.2 hnote,
        fun l hl => lint?_eq_none_iff.2 (hearlier l hl)⟩
    | untitled hcode hothers =>
      rw [hcode, Option.none_or, eq_comm, List.findSome?_eq_none_iff]
      exact fun l hl => lint?_eq_none_iff.2 (hothers l hl)
  · rintro rfl
    cases hcode : h.code with
    | some code => exact .code hcode
    | none =>
      cases hlint : others.findSome? lint? with
      | none =>
        exact .untitled hcode fun l hl =>
          lint?_eq_none_iff.1 (List.findSome?_eq_none_iff.1 hlint l hl)
      | some lint =>
        obtain ⟨earlier, note, later, hothers, hnote, hearlier⟩ :=
          List.findSome?_eq_some_iff.1 hlint
        exact .note hcode hothers (fun l hl => lint?_eq_none_iff.1 (hearlier l hl))
          (lint?_eq_some_iff.1 hnote)

/-- The annotation of a header at a written place, given the other lines of its block. -/
structure Reports (a : Annotation) (h : Header) (others : List (List Char))
    (file line column : List Char) : Prop where
  level : a.level = h.level
  file : a.file = String.ofList file
  line : a.line.toNat = number line
  column : a.column.toNat = number column
  endLine : a.endLine = none
  endColumn : a.endColumn = none
  title : ∃ title, IsTitle h others title ∧ a.title = title.map String.ofList
  message : a.message = String.ofList h.message

/-- The line has a place. -/
def HasPlace (line : List Char) : Prop := ∃ file l column, IsLocation line file l column

/-- What a header and the lines of its block tell: the header at the first place among the lines,
or nothing where there is none. -/
inductive Tells (h : Header) (body : List (List Char)) : Option Annotation → Prop where
  | report {before after : List (List Char)} {place file line column : List Char} {a : Annotation}
      (hbody : body = before ++ place :: after) (hbefore : ∀ l ∈ before, ¬HasPlace l)
      (hplace : IsLocation place file line column)
      (ha : Reports a h (before ++ after) file line column) : Tells h body (some a)
  | nothing (hbody : ∀ l ∈ body, ¬HasPlace l) : Tells h body none

theorem place?_eq_none_iff : place? line = none ↔ ¬HasPlace line := by
  constructor
  · rintro hnone ⟨file, l, column, hplace⟩
    rw [place?_eq_some_iff.2 ⟨file, l, column, hplace, rfl⟩] at hnone
    cases hnone
  · intro hnone
    refine Option.eq_none_iff_forall_not_mem.2 fun p hp => ?_
    obtain ⟨file, l, column, hplace, -⟩ := place?_eq_some_iff.1 hp
    exact hnone ⟨file, l, column, hplace⟩

theorem reports_iff {a : Annotation} {file l column : List Char} (hl : l ≠ []) (hc : column ≠ []) :
    Reports a h others file l column ↔
      (⟨h, h.code.or (others.findSome? lint?), some (.of file l column)⟩ : Block).annotation? =
        some a := by
  constructor
  · rintro ⟨hlevel, hfile, hline, hcolumn, hendLine, hendColumn, ⟨title, htitle, hatitle⟩, hmessage⟩
    rw [← toNat_position hl, UInt32.toNat_inj] at hline
    rw [← toNat_position hc, UInt32.toNat_inj] at hcolumn
    cases a
    simp_all [Block.annotation?, Place.of, isTitle_iff.1 htitle]
  · intro ha
    obtain rfl := Option.some.inj ha
    exact ⟨rfl, rfl, toNat_position hl, toNat_position hc, rfl, rfl, ⟨_, isTitle_iff.2 rfl, rfl⟩,
      rfl⟩

/-- What a block tells is what is gathered of it. -/
theorem tells_iff {told : Option Annotation} :
    Tells h body told ↔ told = (body.foldl Block.add (Block.ofHeader h)).annotation? := by
  constructor
  · intro htells
    cases htells with
    | report hbody hbefore hplace ha =>
      have hread := place?_eq_some_iff.2 ⟨_, _, _, hplace, rfl⟩
      rw [hbody, foldl_add (fun l hl => place?_eq_none_iff.2 (hbefore l hl)) hread]
      exact ((reports_iff hplace.ne_nil.1 hplace.ne_nil.2).1 ha).symm
    | nothing hbody =>
      have hnone : ∀ l ∈ body, place? l = none := fun l hl => place?_eq_none_iff.2 (hbody l hl)
      rw [foldl_add_of_no_place (.inr hnone)]
      rfl
  · rintro rfl
    cases hfound : body.findSome? place? with
    | none =>
      have hnone := List.findSome?_eq_none_iff.1 hfound
      rw [foldl_add_of_no_place (.inr hnone)]
      exact .nothing fun l hl => place?_eq_none_iff.1 (hnone l hl)
    | some p =>
      obtain ⟨before, place, after, hbody, hplace, hbefore⟩ := List.findSome?_eq_some_iff.1 hfound
      rw [hbody, foldl_add hbefore hplace, ← hbody]
      obtain ⟨file, l, column, hlocation, rfl⟩ := place?_eq_some_iff.1 hplace
      exact .report hbody (fun l hl => place?_eq_none_iff.1 (hbefore l hl)) hlocation
        ((reports_iff hlocation.ne_nil.1 hlocation.ne_nil.2).2 rfl)

/-! ## The blocks of an output -/

theorem tell?_of_heads (hline : Heads line h) : gathering.tell? line after =
    ((gathering.body after).foldl Block.add (Block.ofHeader h)).annotation? := by
  rw [Gathering.tell?_of_mark (mark?_of_heads hline)]
  rfl

theorem tell?_of_not_heads (hline : ∀ h, ¬Heads line h) : gathering.tell? line after = none := by
  cases hmark : gathering.mark? line with
  | none => exact Gathering.tell?_of_no_mark hmark
  | some next =>
    cases next with
    | none => exact Gathering.tell?_of_mark hmark
    | some b =>
      obtain ⟨h, hheads⟩ := exists_heads_of_mark? hmark
      exact absurd hheads (hline h)

/-- Each header that is no summary tells what its block does, which are the lines behind it up to
the next such header or summary; no other line tells anything, and the annotations stand in the
order of the headers. -/
theorem blocks_told (output : String) : ∃ tells : Nat → Option Annotation,
    reader.read output = (List.range (lines output.toList).length).filterMap tells ∧
    ∀ i line, (lines output.toList)[i]? = some line →
      (∀ h, Heads line h → ∃ body, IsBody EndsBlock ((lines output.toList).drop (i + 1)) body ∧
        Tells h body (tells i)) ∧
      ((∀ h, ¬Heads line h) → tells i = none) := by
  refine ⟨gathering.toldAt (lines output.toList), gathers_reader.read_eq output,
    fun i line hline => ?_⟩
  have hat : gathering.toldAt (lines output.toList) i =
      gathering.tell? line ((lines output.toList).drop (i + 1)) := by
    rw [Gathering.toldAt, hline, Option.bind_some]
  rw [hat]
  refine ⟨fun h hheads => ⟨_, (Gathering.isBody_iff_eq_body fun _ => isSome_mark?_iff).2 rfl, ?_⟩,
    tell?_of_not_heads⟩
  exact tells_iff.2 (tell?_of_heads hheads)

/-- The output for a crate with an unused function, whose line number has more than 32 bits. -/
def built : String := "\n".intercalate
  ["   Compiling demo v0.1.0", "warning: function `run` is never used",
    "  = note: `#[warn(dead_code)]` on by default", " --> src/a.rs:4294967296:5",
    " --> #[deny(unused)]:1:2", "error[E0308]: mismatched types", " --> src/b.rs:3:5",
    "warning: `demo` (lib) generated 1 warning", " --> src/c.rs:1:1"]

theorem heads_built : Heads "warning: function `run` is never used".toList
    ⟨.warning, none, "function `run` is never used".toList⟩ :=
  ⟨header?_eq_some_iff.1 (by decide), fun h => absurd (isSummary_iff.2 h) (by decide)⟩

theorem blocks_told_built :
    { level := .warning, file := "src/a.rs", line := 1, column := 5, title := some "dead_code"
      message := "function `run` is never used" } ∈ reader.read built := by
  obtain ⟨tells, hread, htells⟩ := blocks_told built
  have hlines : lines built.toList =
      ["   Compiling demo v0.1.0".toList, "warning: function `run` is never used".toList,
        "  = note: `#[warn(dead_code)]` on by default".toList, " --> src/a.rs:4294967296:5".toList,
        " --> #[deny(unused)]:1:2".toList, "error[E0308]: mismatched types".toList,
        " --> src/b.rs:3:5".toList, "warning: `demo` (lib) generated 1 warning".toList,
        " --> src/c.rs:1:1".toList] :=
    lines_intercalate (by decide) (by decide)
  rw [hlines] at hread htells
  obtain ⟨body, hbody, htold⟩ := (htells 1 _ rfl).1 _ heads_built
  rw [Gathering.isBody_iff_eq_body fun _ => isSome_mark?_iff] at hbody
  rw [hbody, tells_iff] at htold
  rw [hread]
  exact List.mem_filterMap.2 ⟨1, by decide, htold.trans (by decide +kernel)⟩

end Steward.Output.Rustc
