import Steward.Output.Format

/-!
# Output in blocks

A tool reports in blocks, each with a first line of its own kind. Where output is cut before such a
line, its two parts are read on their own, whatever the first part holds: a report that it breaks
off is closed, or dropped, as it would be where the output ends.

* `Reader.Opens`: a line that closes whatever the reader holds.
* `Reader.read_append`: output is read in parts where the second part starts with such a line.
* `Tsc.opens_of_diagnostic`, `StackTrace.opens_of_header`, `Rustc.opens_of_header`,
  `Rustc.opens_of_summary`, `CargoTest.opens_of_section`: the lines that open a block of a format.
* `read_append_at_block`: so the formats are read block by block.
-/

namespace Steward.Output

/-- Whether a text is empty or ends with a line feed. -/
def EndsLine (a : String) : Prop := a = "" ∨ a.toList.getLast? = some '\n'

/-- Whether a text has a first line, and it passes a test. -/
def StartsWith (p : List Char → Prop) (b : String) : Prop :=
  ∃ line, (Text.lines b.toList).head? = some line ∧ p line

theorem lines_append_of_endsLine {a : String} (ha : EndsLine a) (b : String) :
    Text.lines (a ++ b).toList = Text.lines a.toList ++ Text.lines b.toList := by
  rw [String.toList_append]
  refine Text.lines_append _ ?_
  obtain rfl | ha := ha
  · exact .inl rfl
  · exact .inr ha

/-! ## Readers -/

namespace Reader

variable {σ : Type} {r : Reader σ} {line : List Char} {a b : String}

/-- A line that closes what the reader holds, as the end of the output would, and is then read as at
the start. -/
def Opens (r : Reader σ) (line : List Char) : Prop :=
  ∀ s, r.step s line = (r.finish s ++ (r.step r.start line).1, (r.step r.start line).2)

theorem read_append (ha : EndsLine a) (hb : StartsWith r.Opens b) :
    r.read (a ++ b) = r.read a ++ r.read b := by
  obtain ⟨line, hline, hopens⟩ := hb
  obtain ⟨rest, hrest⟩ := List.head?_eq_some_iff.1 hline
  unfold read readChars
  rw [lines_append_of_endsLine ha, hrest, run_append, r.run_eq_finish_append line rest hopens,
    r.run_eq_pass r.start (Text.lines a.toList), List.append_assoc]

/-- A reader without a state that gives nothing at the end reads each line on its own. -/
theorem read_append_of_stateless {r : Reader Unit} (hr : r.finish () = []) (ha : EndsLine a)
    (b : String) : r.read (a ++ b) = r.read a ++ r.read b := by
  cases hb : Text.lines b.toList with
  | nil =>
    unfold read readChars
    rw [lines_append_of_endsLine ha, hb, List.append_nil]
    simp [run, hr]
  | cons line rest =>
    have hopens : r.Opens line := fun s => by rw [hr]; rfl
    exact read_append ha ⟨line, by rw [hb]; rfl, hopens⟩

end Reader

/-! ## First lines of blocks -/

theorem Tsc.opens_of_diagnostic {line : List Char} (h : (Tsc.diagnostic? line).isSome) :
    Tsc.reader.Opens line := by
  obtain ⟨⟨file, t⟩, h⟩ := Option.isSome_iff_exists.1 h
  intro last
  simp [Tsc.reader, h]

theorem StackTrace.opens_of_header {line : List Char} (h : (StackTrace.header? line).isSome) :
    StackTrace.reader.Opens line := by
  obtain ⟨⟨name, message⟩, h⟩ := Option.isSome_iff_exists.1 h
  intro last
  simp [StackTrace.reader, StackTrace.done, h]

theorem Rustc.opens_of_summary {line : List Char} (h : Rustc.isSummary line = true) :
    Rustc.reader.Opens line := by
  intro last
  simp [Rustc.reader, Rustc.done, h]

/-- A line that is both a header and a summary is taken for a summary. -/
theorem Rustc.opens_of_header {line : List Char} (h : (Rustc.header? line).isSome) :
    Rustc.reader.Opens line := by
  by_cases hs : Rustc.isSummary line = true
  · exact Rustc.opens_of_summary hs
  · obtain ⟨header, h⟩ := Option.isSome_iff_exists.1 h
    intro last
    simp [Rustc.reader, Rustc.done, h, hs]

namespace CargoTest

variable {line name : List Char}

/-- A section line ends both kinds of message. -/
theorem ends_of_section (h : section? line = some name) :
    startsBlock line = true ∧ endsMessage line = true := by
  obtain ⟨rest, hrest, -⟩ := Option.bind_eq_some_iff.1 h
  have hdashes : Text.startsWith "---- ".toList line = true := by
    rw [Text.startsWith, hrest]
    rfl
  constructor
  · simp only [startsBlock, h, Option.isSome_some, Bool.true_or]
  · simp only [endsMessage, hdashes, Bool.or_true, Bool.true_or]

theorem opens_of_section (h : (section? line).isSome) : reader.Opens line := by
  obtain ⟨name, h⟩ := Option.isSome_iff_exists.1 h
  obtain ⟨hblock, hmessage⟩ := ends_of_section h
  -- The section of the lines before does not matter: this line names another.
  have hfresh : ∀ test, fresh test line = ([], { test := some (String.ofList name) }) := by
    intro test
    simp [fresh, h]
  rintro ⟨test, pending⟩
  cases pending with
  | none => simp [reader, step, close, hfresh]
  | some p =>
    cases p with
    | opened title text => simp [reader, step, close, hfresh, hblock]
    | located title place lines => simp [reader, step, close, hfresh, hmessage]

end CargoTest

/-! ## Blocks -/

theorem StartsWith.mono {p q : List Char → Prop} {b : String} (h : StartsWith p b)
    (hpq : ∀ line, p line → q line) : StartsWith q b := by
  obtain ⟨line, hline, hp⟩ := h
  exact ⟨line, hline, hpq line hp⟩

/-- Output that is cut after a line end is read as its two parts are: messages of the compiler and
formatting differences at every such cut, the other formats where the second part starts with the
first line of a block. -/
theorem read_append_at_block {a : String} (ha : EndsLine a) (b : String) :
    CargoMessage.reader.read (a ++ b) =
        CargoMessage.reader.read a ++ CargoMessage.reader.read b ∧
      CargoFormat.reader.read (a ++ b) =
        CargoFormat.reader.read a ++ CargoFormat.reader.read b ∧
      (StartsWith (fun line => (Tsc.diagnostic? line).isSome) b →
        Tsc.reader.read (a ++ b) = Tsc.reader.read a ++ Tsc.reader.read b) ∧
      (StartsWith (fun line => (StackTrace.header? line).isSome) b →
        StackTrace.reader.read (a ++ b) = StackTrace.reader.read a ++ StackTrace.reader.read b) ∧
      (StartsWith (fun line => (Rustc.header? line).isSome ∨ Rustc.isSummary line = true) b →
        Rustc.reader.read (a ++ b) = Rustc.reader.read a ++ Rustc.reader.read b) ∧
      (StartsWith (fun line => (CargoTest.section? line).isSome) b →
        CargoTest.reader.read (a ++ b) = CargoTest.reader.read a ++ CargoTest.reader.read b) := by
  refine ⟨Reader.read_append_of_stateless rfl ha b, Reader.read_append_of_stateless rfl ha b,
    fun hb => ?_, fun hb => ?_, fun hb => ?_, fun hb => ?_⟩
  · exact Reader.read_append ha (hb.mono fun _ => Tsc.opens_of_diagnostic)
  · exact Reader.read_append ha (hb.mono fun _ => StackTrace.opens_of_header)
  · refine Reader.read_append ha (hb.mono fun _ h => ?_)
    obtain hheader | hsummary := h
    · exact Rustc.opens_of_header hheader
    · exact Rustc.opens_of_summary hsummary
  · exact Reader.read_append ha (hb.mono fun _ => CargoTest.opens_of_section)

/-- Output that breaks off in the middle of a report of each format. -/
def torn : String :=
  "a.ts(3,5): error TS1: torn\nTypeError: torn\nerror: torn\nthread 'one' panicked at 'torn\n"

/-- The section of a test with a panic. -/
def panicSection : String :=
  "---- two stdout ----\nthread 'two' panicked at src/b.rs:3:5:\nwhole\n"

theorem read_append_at_block_torn :
    CargoFormat.reader.read (torn ++ "Diff in src/b.rs:3:") =
        CargoFormat.reader.read torn ++ CargoFormat.reader.read "Diff in src/b.rs:3:" ∧
      Tsc.reader.read (torn ++ "src/b.ts(1,2): error TS1: whole") =
        Tsc.reader.read torn ++ Tsc.reader.read "src/b.ts(1,2): error TS1: whole" ∧
      StackTrace.reader.read (torn ++ "RangeError: whole\n    at run (src/b.ts:3:5)") =
        StackTrace.reader.read torn ++
          StackTrace.reader.read "RangeError: whole\n    at run (src/b.ts:3:5)" ∧
      Rustc.reader.read (torn ++ "error: whole\n --> src/b.rs:3:5") =
        Rustc.reader.read torn ++ Rustc.reader.read "error: whole\n --> src/b.rs:3:5" ∧
      CargoTest.reader.read (torn ++ panicSection) =
        CargoTest.reader.read torn ++ CargoTest.reader.read panicSection := by
  have ha : EndsLine torn := .inr (by decide)
  refine ⟨(read_append_at_block ha _).2.1, ?_, ?_, ?_, ?_⟩
  · exact (read_append_at_block ha _).2.2.1 ⟨_, rfl, by decide⟩
  · exact (read_append_at_block ha _).2.2.2.1 ⟨_, rfl, by decide⟩
  · exact (read_append_at_block ha _).2.2.2.2.1 ⟨_, rfl, by decide⟩
  · exact (read_append_at_block ha _).2.2.2.2.2 ⟨_, rfl, by decide⟩

end Steward.Output
