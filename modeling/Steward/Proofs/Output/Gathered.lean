import Steward.Output.Place
import Steward.Output.Reader
import Steward.Proofs.Text.Trim

/-!
# Readers that gather lines

Some readers hold at most one report. A line with a mark gives what is held and may open the next
report; every other line is added to it. So a report is told by its first line and the lines behind
it up to the next mark, whatever stands before them.

* `Reader.Gathers`, `Reader.Gathers.run_eq`: such a reader gives what it holds, completed by the
  lines, and then what these tell themselves.
* `Reader.Gathers.read_eq`: what an output tells, line by line.
* `IsBody`, `Gathering.isBody_iff_eq_body`: the lines that belong to a report.
* `IsPlaceText`, `cutPlace?_eq_some_iff_isPlaceText`: how places are written.
-/

namespace Steward.Output

open Text

/-! ## Reports of several lines -/

/-- How lines are put together to reports of which a `β` is one that is not complete. -/
structure Gathering (β : Type) where
  /-- For a line with a mark, the report that it opens, if any. -/
  mark? : List Char → Option (Option β)
  add : β → List Char → β
  give? : β → Option Annotation

/-- The reader holds one report of a gathering, or none. -/
structure Reader.Gathers {β : Type} (r : Reader (Option β)) (g : Gathering β) : Prop where
  start : r.start = none
  step : ∀ last line, r.step last line =
    match g.mark? line with
    | some next => ((last.bind g.give?).toList, next)
    | none => ([], last.map (g.add · line))
  finish : ∀ last, r.finish last = (last.bind g.give?).toList

namespace Gathering

variable {β : Type} (g : Gathering β)

/-- The lines up to the next mark. -/
def body (after : List (List Char)) : List (List Char) :=
  after.takeWhile fun l => (g.mark? l).isNone

/-- What a report becomes of which lines are left to be read. -/
def complete? (b : β) (after : List (List Char)) : Option Annotation :=
  g.give? ((g.body after).foldl g.add b)

/-- What a line tells, given the lines after it. -/
def tell? (line : List Char) (after : List (List Char)) : Option Annotation :=
  (g.mark? line).join.bind (g.complete? · after)

/-- What lines tell, one after the other. -/
def told : List (List Char) → List Annotation
  | [] => []
  | line :: after => (g.tell? line after).toList ++ told after

/-- What the line at a position tells. -/
def toldAt (ls : List (List Char)) (i : Nat) : Option Annotation :=
  ls[i]?.bind fun line => g.tell? line (ls.drop (i + 1))

theorem told_eq_filterMap (ls : List (List Char)) :
    g.told ls = (List.range ls.length).filterMap (g.toldAt ls) := by
  induction ls with
  | nil => rfl
  | cons line after ih =>
    have hzero : g.toldAt (line :: after) 0 = g.tell? line after := rfl
    have hsucc : g.toldAt (line :: after) ∘ Nat.succ = g.toldAt after := rfl
    rw [told, ih, List.length_cons, List.range_succ_eq_map, List.filterMap_cons,
      List.filterMap_map, hzero, hsucc]
    cases g.tell? line after <;> rfl

variable {g} {line : List Char} {after : List (List Char)}

theorem complete?_nil (b : β) : g.complete? b [] = g.give? b := rfl

theorem complete?_of_mark {next : Option β} (h : g.mark? line = some next) (b : β) :
    g.complete? b (line :: after) = g.give? b := by
  simp [complete?, body, h]

theorem complete?_of_no_mark (h : g.mark? line = none) (b : β) :
    g.complete? b (line :: after) = g.complete? (g.add b line) after := by
  simp [complete?, body, h]

theorem tell?_of_no_mark (h : g.mark? line = none) : g.tell? line after = none := by
  simp [tell?, h]

theorem tell?_of_mark {next : Option β} (h : g.mark? line = some next) :
    g.tell? line after = next.bind (g.complete? · after) := by
  simp [tell?, h]

end Gathering

namespace Reader.Gathers

variable {β : Type} {r : Reader (Option β)} {g : Gathering β}

theorem run_eq (h : r.Gathers g) (last : Option β) (ls : List (List Char)) :
    r.run last ls = (last.bind (g.complete? · ls)).toList ++ g.told ls := by
  induction ls generalizing last with
  | nil => simp [run, h.finish, Gathering.told, Gathering.complete?_nil]
  | cons line after ih =>
    rw [run, h.step, Gathering.told]
    cases hmark : g.mark? line with
    | some next =>
      simp only [ih, Gathering.tell?_of_mark hmark, Gathering.complete?_of_mark hmark]
    | none =>
      simp only [ih, Gathering.tell?_of_no_mark hmark, Gathering.complete?_of_no_mark hmark,
        Option.bind_map, List.nil_append, Option.toList_none]
      rfl

/-- An output gives what its lines tell, each from the lines after it. -/
theorem read_eq (h : r.Gathers g) (output : String) :
    r.read output = (List.range (lines output.toList).length).filterMap
      (g.toldAt (lines output.toList)) := by
  rw [read, readChars, h.start, h.run_eq, g.told_eq_filterMap]
  rfl

end Reader.Gathers

/-! ## The lines of a report -/

/-- The lines up to, but excluding, the next one of a kind. -/
def IsBody (Ends : List Char → Prop) (after body : List (List Char)) : Prop :=
  (∀ l ∈ body, ¬Ends l) ∧ ∃ rest, after = body ++ rest ∧ ∀ l, rest.head? = some l → Ends l

/-- There is one body. -/
theorem isBody_iff {Ends : List Char → Prop} {ends : List Char → Bool}
    (h : ∀ l, ends l = true ↔ Ends l) {after body : List (List Char)} :
    IsBody Ends after body ↔ body = after.takeWhile fun l => !ends l := by
  constructor
  · rintro ⟨hbody, rest, rfl, hrest⟩
    have hinside : ∀ l ∈ body, (!ends l) = true := fun l hl => by
      rw [Bool.not_eq_true', Bool.eq_false_iff, Ne, h]
      exact hbody l hl
    rw [List.takeWhile_append_of_pos hinside]
    cases rest with
    | nil => simp
    | cons l rest => simp [(h l).2 (hrest l rfl)]
  · rintro rfl
    refine ⟨fun l hl hends => ?_, _, List.takeWhile_append_dropWhile.symm, fun l hl => ?_⟩
    · have hinside := List.all_eq_true.1 List.all_takeWhile l hl
      simp [(h l).2 hends] at hinside
    · have hhead := List.head?_dropWhile_not (fun l => !ends l) after
      rw [hl] at hhead
      exact (h l).1 (by simpa using hhead)

theorem Gathering.isBody_iff_eq_body {β : Type} {g : Gathering β} {Ends : List Char → Prop}
    (h : ∀ l, (g.mark? l).isSome ↔ Ends l) {after body : List (List Char)} :
    IsBody Ends after body ↔ body = g.body after := by
  rw [isBody_iff h]
  simp only [Option.not_isSome]
  rfl

/-! ## Places -/

/-- The text `file:line:column`, with numbers in digits of any script. -/
structure IsPlaceText (text file line column : List Char) : Prop where
  written : text = file ++ ':' :: line ++ ':' :: column
  named : file ≠ []
  lines : line ≠ [] ∧ ∀ c ∈ line, isDecimal c = true
  columns : column ≠ [] ∧ ∀ c ∈ column, isDecimal c = true

theorem cutPlace?_eq_some_iff_isPlaceText {s file line column : List Char} :
    cutPlace? s = some (file, line, column) ↔ IsPlaceText s file line column := by
  rw [cutPlace?_eq_some_iff]
  constructor
  · rintro ⟨hs, hf, hl, hc, hline, hcolumn⟩
    exact ⟨hs, hf, ⟨hl, hline⟩, hc, hcolumn⟩
  · rintro ⟨hs, hf, ⟨hl, hline⟩, hc, hcolumn⟩
    exact ⟨hs, hf, hl, hc, hline, hcolumn⟩

/-- A place ends in a character that is not blank. -/
theorem IsPlaceText.exists_concat {text file line column : List Char}
    (h : IsPlaceText text file line column) :
    ∃ start c, text = start ++ [c] ∧ isBlank c = false := by
  obtain ⟨hne, hdigits⟩ := h.columns
  obtain ⟨digits, c, rfl⟩ := (List.eq_nil_or_concat column).resolve_left hne
  rw [List.concat_eq_append] at *
  refine ⟨file ++ ':' :: line ++ ':' :: digits, c, ?_, isBlank_eq_false_of_isDecimal ?_⟩
  · rw [h.written]
    simp
  · exact hdigits c (by simp)

/-- Blank characters behind a place are cut off, and nothing else. -/
theorem IsPlaceText.trimEnd_append {text file line column trail : List Char}
    (h : IsPlaceText text file line column) (htrail : ∀ c ∈ trail, isBlank c = true) :
    trimEnd (text ++ trail) = text := by
  refine trimEndBy_eq_iff.2 ⟨⟨trail, rfl, htrail⟩, fun d hd => ?_⟩
  obtain ⟨start, c, rfl, hc⟩ := h.exists_concat
  rw [List.getLast?_concat] at hd
  rwa [← Option.some.inj hd]

end Steward.Output
