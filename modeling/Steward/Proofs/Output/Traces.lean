import Steward.Proofs.Output.PanicLines
import Steward.Proofs.Output.TraceLines

/-!
# Errors are pinned to the first frame of the program

An error is told at the first frame behind it, and before the next error, that is neither in a
dependency nor in the runtime; an error without such a frame is not told. A frame is read as the
file and the numbers that were written, whatever characters the name of the file holds.

* `gathers_reader`: the reader gathers the lines of a trace.
* `IsOwnFrame`, `ownPlace?_eq_some_iff`: the frames of the program.
* `Tells`, `tells_iff`: what an error and the lines behind it tell.
* `callLine`, `place?_callLine`, `bareLine`, `place?_bareLine`: frames are read back.
* `errors_told_at_first_own_frame`: both together.
-/

namespace Steward.Output.StackTrace

open Text
open CargoTest (number toNat_position)

/-! ## The reader -/

/-- How traces are gathered. -/
def gathering : Gathering Trace where
  mark? line := (header? line).map fun (name, message) =>
    some ⟨String.ofList name, String.ofList message, none⟩
  add := Trace.addFrame
  give? := Trace.annotation?

theorem gathers_reader : reader.Gathers gathering where
  start := rfl
  step last line := by
    cases hheader : header? line <;> simp [reader, gathering, done, hheader]
  finish _ := rfl

/-- The line names an error. -/
def Heads (line : List Char) : Prop := ∃ name message, IsHeader line name message

variable {line name message own l column : List Char} {p : Place} {t : Trace}
  {ls after body : List (List Char)}

theorem mark?_of_isHeader (h : IsHeader line name message) :
    gathering.mark? line = some (some ⟨String.ofList name, String.ofList message, none⟩) := by
  simp [gathering, header?_eq_some_iff.2 h]

theorem mark?_of_not_heads (h : ¬Heads line) : gathering.mark? line = none := by
  refine Option.map_eq_none_iff.2 (Option.eq_none_iff_forall_not_mem.2 fun ⟨name, message⟩ hm => ?_)
  exact h ⟨name, message, header?_eq_some_iff.1 hm⟩

theorem isSome_mark?_iff : (gathering.mark? line).isSome ↔ Heads line := by
  constructor
  · intro hmark
    by_contra hline
    rw [mark?_of_not_heads hline] at hmark
    cases hmark
  · rintro ⟨name, message, hline⟩
    rw [mark?_of_isHeader hline]
    rfl

/-! ## Frames of the program -/

/-- The line is a frame in the file `own` of the program itself. -/
def IsOwnFrame (line own l column : List Char) : Prop :=
  ∃ file, IsFrame line file l column ∧ IsOwn file own ∧ ¬IsInternal own

/-- The place of a frame of the program itself. -/
def ownPlace? (line : List Char) : Option Place := (place? line).filter fun p => !isInternal p.file

theorem ownPlace?_eq_some_iff : ownPlace? line = some p ↔
    ∃ own l column, IsOwnFrame line own l column ∧ p = .of own l column := by
  rw [ownPlace?, Option.filter_eq_some_iff, place?_eq_some_iff]
  constructor
  · rintro ⟨⟨file, l, column, hframe, rfl⟩, hown⟩
    refine ⟨dropScheme file, l, column, ⟨file, hframe, isOwn_dropScheme file, fun hin => ?_⟩, rfl⟩
    rw [Place.of, isInternal_iff.2 hin] at hown
    cases hown
  · rintro ⟨own, l, column, ⟨file, hframe, hown, hin⟩, rfl⟩
    refine ⟨⟨file, l, column, hframe, by rw [dropScheme_eq_iff.2 hown]⟩, ?_⟩
    rw [Bool.not_eq_true', Bool.eq_false_iff]
    exact fun h => hin (isInternal_iff.1 h)

theorem ownPlace?_eq_none_iff :
    ownPlace? line = none ↔ ∀ own l column, ¬IsOwnFrame line own l column := by
  constructor
  · intro hnone own l column hframe
    rw [ownPlace?_eq_some_iff.2 ⟨own, l, column, hframe, rfl⟩] at hnone
    cases hnone
  · intro hnone
    refine Option.eq_none_iff_forall_not_mem.2 fun p hp => ?_
    obtain ⟨own, l, column, hframe, -⟩ := ownPlace?_eq_some_iff.1 hp
    exact hnone own l column hframe

/-- The first frame of the program stays the place of a trace. -/
theorem foldl_addFrame (ls : List (List Char)) (t : Trace) :
    ls.foldl Trace.addFrame t = { t with place := t.place.or (ls.findSome? ownPlace?) } := by
  induction ls generalizing t with
  | nil => simp
  | cons line ls ih =>
    rw [List.foldl_cons, ih, List.findSome?_cons]
    change { t with place := (t.place.or (ownPlace? line)).or _ } = _
    rw [Option.or_assoc]
    cases ownPlace? line <;> rfl

/-! ## What an error tells -/

/-- The annotation of an error at a written place. -/
structure Reports (a : Annotation) (name message file line column : List Char) : Prop where
  level : a.level = .error
  file : a.file = String.ofList file
  line : a.line.toNat = number line
  column : a.column.toNat = number column
  endLine : a.endLine = none
  endColumn : a.endColumn = none
  title : a.title = some (String.ofList name)
  message : a.message = String.ofList message

/-- What an error and the lines behind it tell: the error at the first frame of the program, or
nothing where there is none. -/
inductive Tells (name message : List Char) (body : List (List Char)) :
    Option Annotation → Prop where
  | report {before after : List (List Char)} {frame own l column : List Char} {a : Annotation}
      (hbody : body = before ++ frame :: after)
      (hbefore : ∀ line ∈ before, ∀ own l column, ¬IsOwnFrame line own l column)
      (hframe : IsOwnFrame frame own l column) (ha : Reports a name message own l column) :
      Tells name message body (some a)
  | nothing (hbody : ∀ line ∈ body, ∀ own l column, ¬IsOwnFrame line own l column) :
      Tells name message body none

theorem reports_iff {a : Annotation} (hl : l ≠ []) (hc : column ≠ []) :
    Reports a name message own l column ↔
      (⟨String.ofList name, String.ofList message, some (.of own l column)⟩ : Trace).annotation? =
        some a := by
  constructor
  · rintro ⟨hlevel, hfile, hline, hcolumn, hendLine, hendColumn, htitle, hmessage⟩
    rw [← toNat_position hl, UInt32.toNat_inj] at hline
    rw [← toNat_position hc, UInt32.toNat_inj] at hcolumn
    cases a
    simp_all [Trace.annotation?, Place.of]
  · intro ha
    obtain rfl := Option.some.inj ha
    exact ⟨rfl, rfl, toNat_position hl, toNat_position hc, rfl, rfl, rfl, rfl⟩

/-- What an error tells is what is gathered of its trace. -/
theorem tells_iff {told : Option Annotation} : Tells name message body told ↔
    told = (body.foldl Trace.addFrame
      ⟨String.ofList name, String.ofList message, none⟩).annotation? := by
  rw [foldl_addFrame, Option.none_or]
  constructor
  · intro htells
    cases htells with
    | report hbody hbefore hframe ha =>
      have hdigits := hframe.choose_spec.1.ne_nil
      have hfound := List.findSome?_eq_some_iff.2 ⟨_, _, _, hbody,
        ownPlace?_eq_some_iff.2 ⟨_, _, _, hframe, rfl⟩,
        fun line hline => ownPlace?_eq_none_iff.2 (hbefore line hline)⟩
      rw [hfound]
      exact ((reports_iff hdigits.1 hdigits.2).1 ha).symm
    | nothing hbody =>
      rw [List.findSome?_eq_none_iff.2 fun line hline => ownPlace?_eq_none_iff.2 (hbody line hline)]
      rfl
  · rintro rfl
    cases hfound : body.findSome? ownPlace? with
    | none =>
      exact .nothing fun line hline =>
        ownPlace?_eq_none_iff.1 (List.findSome?_eq_none_iff.1 hfound line hline)
    | some p =>
      obtain ⟨before, frame, after, hbody, hplace, hbefore⟩ := List.findSome?_eq_some_iff.1 hfound
      obtain ⟨own, l, column, hframe, rfl⟩ := ownPlace?_eq_some_iff.1 hplace
      have hdigits := hframe.choose_spec.1.ne_nil
      exact .report hbody (fun line hline => ownPlace?_eq_none_iff.1 (hbefore line hline)) hframe
        ((reports_iff hdigits.1 hdigits.2).2 rfl)

/-! ## Frames are read back -/

/-- The digits denote a number of 32 bits. There may be zeros before it. -/
structure IsNumeral (digits : List Char) (n : UInt32) : Prop where
  nonempty : digits ≠ []
  ascii : ∀ c ∈ digits, c.isDigit = true
  value : Nat.ofDigitChars 10 digits 0 = n.toNat

/-- The text `file:line:column`. -/
def placeText (file line column : List Char) : List Char := file ++ ':' :: line ++ ':' :: column

/-- The frame line `at fn (file:line:column)`. -/
def callLine (fn file line column : List Char) : List Char :=
  "    at ".toList ++ (fn ++ (" (".toList ++ (placeText file line column ++ [')'])))

/-- The frame line `at file:line:column`. -/
def bareLine (file line column : List Char) : List Char :=
  "    at ".toList ++ placeText file line column

variable {fn file : List Char} {m n : UInt32}

theorem IsNumeral.position (h : IsNumeral l n) : position l = n := by
  have hall : l.all Char.isDigit = true := List.all_eq_true.2 h.ascii
  rw [← UInt32.toNat_inj, toNat_position h.nonempty, number,
    if_pos ⟨hall, h.value ▸ n.toNat_lt⟩, h.value]

theorem isPlaceText_placeText (hfile : file ≠ []) (hl : IsNumeral l m) (hc : IsNumeral column n) :
    IsPlaceText (placeText file l column) file l column :=
  ⟨rfl, hfile, ⟨hl.nonempty, fun c h => isDecimal_of_isDigit (hl.ascii c h)⟩, hc.nonempty,
    fun c h => isDecimal_of_isDigit (hc.ascii c h)⟩

theorem isAt_append (body : List Char) : IsAt ("    at ".toList ++ body) body :=
  ⟨"    ".toList, [], by simp, by simp, List.all_eq_true.1 (by decide), by simp⟩

theorem place?_of_isFrame (hframe : IsFrame line file l column) (hfile : ¬scheme <+: file)
    (hl : IsNumeral l m) (hc : IsNumeral column n) :
    place? line = some ⟨String.ofList file, m, n⟩ :=
  place?_eq_some_iff.2 ⟨file, l, column, hframe, by
    rw [Place.of, dropScheme_of_not_prefix hfile, hl.position, hc.position]⟩

theorem place?_callLine (hfn : ¬" (".toList <:+: fn) (hfile : file ≠ [])
    (hscheme : ¬scheme <+: file) (hl : IsNumeral l m) (hc : IsNumeral column n) :
    place? (callLine fn file l column) = some ⟨String.ofList file, m, n⟩ :=
  have hcall : IsCall (callLine fn file l column) file l column :=
    ⟨fn, _, isAt_append _, hfn, isPlaceText_placeText hfile hl hc⟩
  place?_of_isFrame (.inl hcall) hscheme hl hc

theorem place?_bareLine (hhead : ∀ c, file.head? = some c → isBlank c = false ∧ c ≠ '(')
    (hother : ¬∃ f l' c, IsCall (bareLine file l column) f l' c) (hfile : file ≠ [])
    (hscheme : ¬scheme <+: file) (hl : IsNumeral l m) (hc : IsNumeral column n) :
    place? (bareLine file l column) = some ⟨String.ofList file, m, n⟩ :=
  have hbare : IsBare (bareLine file l column) file l column :=
    ⟨_, isAt_append _, isPlaceText_placeText hfile hl hc, hhead⟩
  place?_of_isFrame (.inr ⟨hother, hbare⟩) hscheme hl hc

theorem not_heads_of_isAt {text : List Char} (h : IsAt line text) : ¬Heads line :=
  fun ⟨_, _, hheader⟩ => h.not_isHeader hheader

/-! ## The errors of an output -/

/-- Each line that names an error tells it at the first frame of the program before the next such
line, if there is one; no other line tells anything, and the annotations stand in the order of the
errors. The frames `at fn (file:line:column)` and `at file:line:column` are read as the file, line
and column that were written. -/
theorem errors_told_at_first_own_frame :
    (∀ output : String, ∃ tells : Nat → Option Annotation,
      reader.read output = (List.range (lines output.toList).length).filterMap tells ∧
      ∀ i line, (lines output.toList)[i]? = some line →
        (∀ name message, IsHeader line name message → ∃ body,
          IsBody Heads ((lines output.toList).drop (i + 1)) body ∧
            Tells name message body (tells i)) ∧
        (¬Heads line → tells i = none)) ∧
    ∀ file l column : List Char, ∀ m n : UInt32,
      file ≠ [] → ¬scheme <+: file → IsNumeral l m → IsNumeral column n →
        (∀ fn, ¬" (".toList <:+: fn → ¬Heads (callLine fn file l column) ∧
          place? (callLine fn file l column) = some ⟨String.ofList file, m, n⟩) ∧
        ((∀ c, file.head? = some c → isBlank c = false ∧ c ≠ '(') →
          (¬∃ f l' c, IsCall (bareLine file l column) f l' c) →
            ¬Heads (bareLine file l column) ∧
            place? (bareLine file l column) = some ⟨String.ofList file, m, n⟩) := by
  refine ⟨fun output => ?_, fun file l column m n hfile hscheme hl hc => ⟨fun fn hfn => ?_,
    fun hhead hother => ?_⟩⟩
  · refine ⟨gathering.toldAt (lines output.toList), gathers_reader.read_eq output,
      fun i line hline => ?_⟩
    have hat : gathering.toldAt (lines output.toList) i =
        gathering.tell? line ((lines output.toList).drop (i + 1)) := by
      rw [Gathering.toldAt, hline, Option.bind_some]
    rw [hat]
    refine ⟨fun name message hheader => ⟨_,
      (Gathering.isBody_iff_eq_body fun _ => isSome_mark?_iff).2 rfl, ?_⟩,
      fun hheads => Gathering.tell?_of_no_mark (mark?_of_not_heads hheads)⟩
    exact tells_iff.2 (Gathering.tell?_of_mark (mark?_of_isHeader hheader))
  · exact ⟨not_heads_of_isAt (isAt_append _), place?_callLine hfn hfile hscheme hl hc⟩
  · exact ⟨not_heads_of_isAt (isAt_append _), place?_bareLine hhead hother hfile hscheme hl hc⟩

/-- The output of a server with two errors. No frame of the second is its own. -/
def thrown : String := "\n".intercalate
  ["TypeError: x is undefined", "    at get (/srv/node_modules/a.js:1:2)",
    "    at Page (file:///my app/(in)/b:1.tsx:9:3)", "    at /my app/main.js:4:1",
    "RangeError: too long", "    at node:internal:1:1"]

theorem isHeader_thrown :
    IsHeader "TypeError: x is undefined".toList "TypeError".toList "x is undefined".toList :=
  header?_eq_some_iff.1 (by decide)

theorem not_isCall_main {f l' c : List Char} :
    ¬IsCall (bareLine "/my app/main.js".toList ['4'] ['1']) f l' c := by
  intro hcall
  obtain ⟨body, hframe, hbody⟩ := isCall_iff.2 ⟨f, l', c, hcall, rfl⟩
  have hbare : frame? (bareLine "/my app/main.js".toList ['4'] ['1']) =
      some "/my app/main.js:4:1".toList := by decide
  obtain rfl := Option.some.inj (hframe.symm.trans hbare)
  have hnone : callPlace? "/my app/main.js:4:1".toList = none := by decide +kernel
  rw [hnone] at hbody
  cases hbody

theorem errors_told_thrown :
    { level := .error, file := "/my app/(in)/b:1.tsx", line := 9, column := 3
      title := some "TypeError", message := "x is undefined" } ∈ reader.read thrown ∧
    place? "    at Page (/my app/(in)/b:1.tsx:9:3)".toList =
      some ⟨"/my app/(in)/b:1.tsx", 9, 3⟩ ∧
    place? "    at /my app/main.js:4:1".toList = some ⟨"/my app/main.js", 4, 1⟩ := by
  obtain ⟨htold, hframes⟩ := errors_told_at_first_own_frame
  have h9 : IsNumeral ['9'] 9 := ⟨by decide, List.all_eq_true.1 (by decide), by decide⟩
  have h3 : IsNumeral ['3'] 3 := ⟨by decide, List.all_eq_true.1 (by decide), by decide⟩
  have h4 : IsNumeral ['4'] 4 := ⟨by decide, List.all_eq_true.1 (by decide), by decide⟩
  have h1 : IsNumeral ['1'] 1 := ⟨by decide, List.all_eq_true.1 (by decide), by decide⟩
  have hopen : ¬" (".toList <:+: "Page".toList := fun h => absurd (contains_iff.2 h) (by decide)
  have hhead : ∀ c, "/my app/main.js".toList.head? = some c → isBlank c = false ∧ c ≠ '(' := by
    intro c hc
    obtain rfl : '/' = c := Option.some.inj hc
    decide
  refine ⟨?_, ?_, ?_⟩
  · obtain ⟨tells, hread, htells⟩ := htold thrown
    have hlines : lines thrown.toList =
        ["TypeError: x is undefined".toList, "    at get (/srv/node_modules/a.js:1:2)".toList,
          "    at Page (file:///my app/(in)/b:1.tsx:9:3)".toList,
          "    at /my app/main.js:4:1".toList, "RangeError: too long".toList,
          "    at node:internal:1:1".toList] := lines_intercalate (by decide) (by decide)
    rw [hlines] at hread htells
    obtain ⟨body, hbody, hfound⟩ := (htells 0 _ rfl).1 _ _ isHeader_thrown
    rw [Gathering.isBody_iff_eq_body fun _ => isSome_mark?_iff] at hbody
    rw [hbody, tells_iff] at hfound
    rw [hread]
    exact List.mem_filterMap.2 ⟨0, by decide, hfound.trans (by decide +kernel)⟩
  · exact ((hframes "/my app/(in)/b:1.tsx".toList ['9'] ['3'] 9 3 (by decide) (by decide) h9 h3).1
      "Page".toList hopen).2
  · exact ((hframes "/my app/main.js".toList ['4'] ['1'] 4 1 (by decide) (by decide) h4 h1).2 hhead
      fun ⟨_, _, _, hcall⟩ => not_isCall_main hcall).2

end Steward.Output.StackTrace
