import Steward.Output.Tsc
import Steward.Proofs.Text.Trim
import Steward.Text.Lines

/-!
# Diagnostics read back

A file name may hold whatever a diagnostic is made of, but for a place in parentheses with a colon
and a space behind it. So the first such place of a line is the one that was written, and the name
ends before it.

* `IsTail`, `tail?_eq_some_iff`: what is written behind a file name.
* `split?_append`: a name without places is found again.
* `IsHeader`, `diagnostic?_eq_none_iff`: the lines that are diagnostics.
* `Written`, `run_written`: the lines of diagnostics, among lines that tell nothing.
* `diagnostics_read_back`: output in these lines gives the diagnostics.
-/

namespace Steward.Output.Tsc

open Text

/-! ## Tails -/

/-- A number, in digits of any script. -/
structure IsDigits (ds : List Char) : Prop where
  nonempty : ds ≠ []
  decimal : ∀ c ∈ ds, isDecimal c = true

/-- The written place `(line,column): `. -/
def place (line column : List Char) : List Char :=
  '(' :: (line ++ ',' :: (column ++ [')', ':', ' ']))

/-- The written level. -/
def levelWord : Annotation.Level → List Char
  | .error => "error".toList
  | .warning => "warning".toList
  | .notice => "message".toList

/-- The text `(line,column): level TS…: message`. -/
def IsTail (s : List Char) (t : Tail) : Prop :=
  ∃ number, IsDigits t.line ∧ IsDigits t.column ∧ IsDigits number ∧ t.code = 'T' :: 'S' :: number ∧
    s = place t.line t.column ++ (levelWord t.level ++ ' ' :: 'T' :: 'S' :: (number ++
      ':' :: ' ' :: t.message))

variable {s rest file : List Char} {t : Tail}

theorem digits?_eq_some {ds : List Char} (h : digits? s = some (ds, rest)) :
    IsDigits ds ∧ s = ds ++ rest := by
  unfold digits? at h
  split at h
  · cases h
  · next hne =>
    obtain ⟨rfl, rfl⟩ := Prod.mk.inj (Option.some.inj h)
    refine ⟨⟨by simpa using hne, fun c hc => ?_⟩, List.takeWhile_append_dropWhile.symm⟩
    exact List.all_eq_true.1 List.all_takeWhile c hc

theorem digits?_append {ds : List Char} {c : Char} (h : IsDigits ds) (hc : isDecimal c = false) :
    digits? (ds ++ c :: rest) = some (ds, c :: rest) := by
  have htake : (ds ++ c :: rest).takeWhile isDecimal = ds := by
    rw [List.takeWhile_append_of_pos h.decimal]
    simp [hc]
  have hdrop : (ds ++ c :: rest).dropWhile isDecimal = c :: rest := by
    rw [List.dropWhile_append_of_pos h.decimal]
    simp [hc]
  have hne := h.nonempty
  simp [digits?, htake, hdrop, hne]

theorem level?_eq_some_iff {level : Annotation.Level} :
    level? s = some (level, rest) ↔ s = levelWord level ++ ' ' :: rest := by
  constructor
  · intro h
    obtain ⟨⟨name, l⟩, hmem, hname⟩ := List.exists_of_findSome?_eq_some h
    simp only [Option.map_eq_some_iff, Prod.mk.injEq, after?_eq_some_iff] at hname
    obtain ⟨_, rfl, rfl, rfl⟩ := hname
    simp only [levels, List.mem_cons, List.not_mem_nil, or_false, Prod.mk.injEq] at hmem
    rcases hmem with ⟨rfl, rfl⟩ | ⟨rfl, rfl⟩ | ⟨rfl, rfl⟩ <;> rfl
  · intro h
    subst h
    cases level <;> rfl

theorem tail?_eq_some_iff : tail? s = some t ↔ IsTail s t := by
  constructor
  · intro h
    obtain ⟨s₁, h₁, h⟩ := Option.bind_eq_some_iff.1 h
    obtain ⟨⟨line, s₂⟩, h₂, h⟩ := Option.bind_eq_some_iff.1 h
    obtain ⟨s₃, h₃, h⟩ := Option.bind_eq_some_iff.1 h
    obtain ⟨⟨column, s₄⟩, h₄, h⟩ := Option.bind_eq_some_iff.1 h
    obtain ⟨s₅, h₅, h⟩ := Option.bind_eq_some_iff.1 h
    obtain ⟨⟨level, s₆⟩, h₆, h⟩ := Option.bind_eq_some_iff.1 h
    obtain ⟨s₇, h₇, h⟩ := Option.bind_eq_some_iff.1 h
    obtain ⟨⟨number, s₈⟩, h₈, h⟩ := Option.bind_eq_some_iff.1 h
    obtain ⟨message, h₉, h⟩ := Option.bind_eq_some_iff.1 h
    obtain rfl := Option.some.inj h
    obtain ⟨hline, rfl⟩ := digits?_eq_some h₂
    obtain ⟨hcolumn, rfl⟩ := digits?_eq_some h₄
    obtain ⟨hnumber, rfl⟩ := digits?_eq_some h₈
    refine ⟨number, hline, hcolumn, hnumber, rfl, ?_⟩
    rw [after?_eq_some_iff.1 h₁, after?_eq_some_iff.1 h₃, after?_eq_some_iff.1 h₅,
      level?_eq_some_iff.1 h₆, after?_eq_some_iff.1 h₇, after?_eq_some_iff.1 h₉]
    simp [place]
  · intro h
    obtain ⟨number, hline, hcolumn, hnumber, hcode, rfl⟩ := h
    obtain ⟨line, column, level, code, message⟩ := t
    subst hcode
    have h₂ : ∀ s, digits? (line ++ ',' :: s) = some (line, ',' :: s) :=
      fun s => digits?_append hline (by decide)
    have h₄ : ∀ s, digits? (column ++ ')' :: s) = some (column, ')' :: s) :=
      fun s => digits?_append hcolumn (by decide)
    have h₆ : ∀ s, level? (levelWord level ++ ' ' :: s) = some (level, s) :=
      fun s => level?_eq_some_iff.2 rfl
    have h₈ : ∀ s, digits? (number ++ ':' :: s) = some (number, ':' :: s) :=
      fun s => digits?_append hnumber (by decide)
    simp [tail?, place, after?, h₂, h₄, h₆, h₈]

/-! ## File names -/

/-- The text has no place in it, in digits of whatever script: all of these end a name. -/
def Placeless (s : List Char) : Prop :=
  ∀ line column, IsDigits line → IsDigits column → ¬ place line column <:+: s

theorem paren_not_mem {line column : List Char} (hline : IsDigits line)
    (hcolumn : IsDigits column) : '(' ∉ line ++ ',' :: (column ++ [')', ':', ' ']) := by
  have hparen : isDecimal '(' = false := by decide
  have hl : '(' ∉ line := fun h => by simp [hline.decimal _ h] at hparen
  have hc : '(' ∉ column := fun h => by simp [hcolumn.decimal _ h] at hparen
  simp [hl, hc]

/-- No tail starts within a text without places that stands before a parenthesis. -/
theorem tail?_eq_none_of_placeless {c : Char} (h : Placeless (c :: file)) :
    tail? (c :: (file ++ '(' :: rest)) = none := by
  rw [Option.eq_none_iff_forall_not_mem]
  intro t ht
  obtain ⟨number, hline, hcolumn, -, -, hs⟩ := tail?_eq_some_iff.1 ht
  simp only [place, List.cons_append] at hs
  obtain ⟨rfl, hfile⟩ := List.cons.inj hs
  have hplace := prefix_of_append_cons (paren_not_mem hline hcolumn) hfile
  exact h _ _ hline hcolumn ((List.prefix_cons_inj _).2 hplace).isInfix

theorem Placeless.tail {c : Char} (h : Placeless (c :: s)) : Placeless s :=
  fun line column hline hcolumn hplace =>
    h line column hline hcolumn (hplace.trans (List.suffix_cons c s).isInfix)

/-- A name without places ends before the first tail. -/
theorem split?_append (hfile : Placeless file) (ht : IsTail s t) :
    split? (file ++ s) = some (file, t) := by
  obtain ⟨rest, hs⟩ : ∃ rest, s = '(' :: rest := by
    obtain ⟨number, -, -, -, -, rfl⟩ := ht
    exact ⟨_, rfl⟩
  -- At each character of the name the reader looks for a tail first, and a tail there would put a
  -- place into the name.
  induction file with
  | nil =>
    subst hs
    rw [List.nil_append, split?, tail?_eq_some_iff.2 ht]
  | cons c file ih =>
    have hnone : tail? (c :: (file ++ s)) = none := by
      rw [hs]
      exact tail?_eq_none_of_placeless hfile
    rw [List.cons_append, split?, hnone]
    simp only [ih hfile.tail, Option.map_some]

theorem exists_of_split? (h : split? s = some (file, t)) : ∃ s', s = file ++ s' ∧ IsTail s' t := by
  induction s generalizing file with
  | nil => cases h
  | cons c s ih =>
    rw [split?] at h
    split at h
    · next t' ht =>
      obtain ⟨rfl, rfl⟩ := Prod.mk.inj (Option.some.inj h)
      exact ⟨c :: s, rfl, tail?_eq_some_iff.1 ht⟩
    · simp only [Option.map_eq_some_iff, Prod.mk.injEq, Prod.exists] at h
      obtain ⟨file, t, hsplit, rfl, rfl⟩ := h
      obtain ⟨s', rfl, ht⟩ := ih hsplit
      exact ⟨s', rfl, ht⟩

theorem split?_ne_none (file : List Char) (h : IsTail s t) : split? (file ++ s) ≠ none := by
  induction file with
  | nil =>
    have htail := tail?_eq_some_iff.2 h
    cases s with
    | nil => cases htail
    | cons c s => simp [split?, htail]
  | cons c file ih =>
    rw [List.cons_append, split?]
    split
    · simp
    · simpa using ih

/-! ## Lines -/

/-- The line is a diagnostic: a file name that does not start with a blank character, and a tail. -/
def IsHeader (line : List Char) : Prop :=
  ∃ c file s t, line = c :: (file ++ s) ∧ isBlank c = false ∧ IsTail s t

/-- A line without text, or one at the margin that is no diagnostic. -/
def Noise (line : List Char) : Prop :=
  line.all isBlank = true ∨ line.head? ≠ some ' ' ∧ line.head? ≠ some '\t' ∧ ¬ IsHeader line

/-- What stands before a line that goes on with a message. -/
def IsIndent (indent : List Char) : Prop :=
  indent ≠ [] ∧ ∀ c ∈ indent, c = ' ' ∨ c = '\t'

section
variable {line indent : List Char}

theorem isHeader_of_diagnostic? {p : List Char × Tail} (h : diagnostic? line = some p) :
    IsHeader line := by
  cases line with
  | nil => cases h
  | cons c line =>
    rw [diagnostic?] at h
    split at h
    · cases h
    · next hc =>
      simp only [Option.map_eq_some_iff, Prod.exists] at h
      obtain ⟨file, t, hsplit, -⟩ := h
      obtain ⟨s, rfl, ht⟩ := exists_of_split? hsplit
      exact ⟨c, file, s, t, rfl, by simpa using hc, ht⟩

theorem diagnostic?_eq_none_iff : diagnostic? line = none ↔ ¬ IsHeader line := by
  constructor
  · intro h hheader
    obtain ⟨c, file, s, t, rfl, hc, ht⟩ := hheader
    rw [diagnostic?, if_neg (by simp [hc])] at h
    exact split?_ne_none file ht (by simpa using h)
  · intro h
    rw [Option.eq_none_iff_forall_not_mem]
    intro p hp
    exact h (isHeader_of_diagnostic? hp)

theorem isHeader_head {c : Char} (h : IsHeader (c :: line)) : isBlank c = false := by
  obtain ⟨d, file, s, t, hline, hd, -⟩ := h
  rwa [(List.cons.inj hline).1]

theorem not_isHeader_of_all_isBlank (h : line.all isBlank = true) : ¬ IsHeader line := by
  intro hheader
  cases line with
  | nil =>
    obtain ⟨c, file, s, t, hline, -⟩ := hheader
    cases hline
  | cons c line =>
    have hc : isBlank c = true := by
      rw [List.all_cons, Bool.and_eq_true] at h
      exact h.1
    rw [isHeader_head hheader] at hc
    cases hc

theorem Noise.not_isHeader (h : Noise line) : ¬ IsHeader line := by
  rcases h with hblank | ⟨-, -, hheader⟩
  · exact not_isHeader_of_all_isBlank hblank
  · exact hheader

theorem Noise.continues (h : Noise line) : continues line = false := by
  rcases h with hblank | ⟨hspace, htab, -⟩
  · simp [Tsc.continues, hblank]
  · simp [Tsc.continues, hspace, htab]

theorem step_noise (last : Option Annotation) (h : Noise line) :
    reader.step last line = ([], last) := by
  simp [reader, diagnostic?_eq_none_iff.2 h.not_isHeader, h.continues]

theorem IsIndent.blank (h : IsIndent indent) : ∀ c ∈ indent, isBlank c = true := by
  intro c hc
  rcases h.2 c hc with rfl | rfl <;> decide

theorem IsIndent.continues (h : IsIndent indent) (hline : Framed line) :
    continues (indent ++ line) = true := by
  obtain ⟨c, hc, hblank⟩ := hline.head
  have hmem : c ∈ line := List.mem_of_head? hc
  obtain ⟨hne, hall⟩ := h
  cases indent with
  | nil => exact absurd rfl hne
  | cons d indent =>
    have hd := hall d List.mem_cons_self
    have hsome : ∃ c ∈ line, isBlank c = false := ⟨c, hmem, hblank⟩
    simp [Tsc.continues, hd, hsome]

theorem IsIndent.not_isHeader (h : IsIndent indent) : ¬ IsHeader (indent ++ line) := by
  intro hheader
  cases indent with
  | nil => exact h.1 rfl
  | cons c indent =>
    have hc := h.blank c List.mem_cons_self
    rw [isHeader_head hheader] at hc
    cases hc

theorem step_indented (a : Annotation) (h : IsIndent indent) (hline : Framed line) :
    reader.step (some a) (indent ++ line) =
      ([], some { a with message := a.message ++ "\n" ++ String.ofList line }) := by
  simp [reader, diagnostic?_eq_none_iff.2 h.not_isHeader, h.continues hline, extend,
    hline.trim_append h.blank]

end

/-! ## Diagnostics -/

/-- A diagnostic of the compiler. -/
structure Diagnostic where
  file : List Char
  line : UInt32
  column : UInt32
  level : Annotation.Level
  /-- The digits of the code. -/
  number : List Char
  /-- The first line of the message, and the lines after it. -/
  message : List Char
  more : List (List Char)

namespace Diagnostic

variable (d : Diagnostic)

/-- What stands behind the file name. -/
def tail : Tail :=
  ⟨numeral d.line.toNat, numeral d.column.toNat, d.level, 'T' :: 'S' :: d.number, d.message⟩

/-- The first written line. -/
def header : List Char :=
  d.file ++ (place (numeral d.line.toNat) (numeral d.column.toNat) ++ (levelWord d.level ++
    ' ' :: 'T' :: 'S' :: (d.number ++ ':' :: ' ' :: d.message)))

/-- What is read of the diagnostic. -/
def reading : Annotation :=
  { level := d.level, file := String.ofList d.file, line := d.line, column := d.column
    title := some (String.ofList ('T' :: 'S' :: d.number))
    message := String.ofList (joinLines (d.message :: d.more)) }

/-- The diagnostic with a line more in its message. -/
def add (line : List Char) : Diagnostic := { d with more := d.more ++ [line] }

/-- The file name is framed and holds no place, the code ends in ASCII digits, and every further
line of the message is framed. -/
structure Proper : Prop where
  file : Framed d.file
  placeless : Placeless d.file
  number : d.number ≠ [] ∧ d.number.all Char.isDigit = true
  more : ∀ line ∈ d.more, Framed line

end Diagnostic

theorem isDigits_of_isDigit {ds : List Char} (hne : ds ≠ []) (h : ds.all Char.isDigit = true) :
    IsDigits ds where
  nonempty := hne
  decimal c hc := isDecimal_of_isDigit (List.all_eq_true.1 h c hc)

theorem position_numeral (n : UInt32) : position (numeral n.toNat) = n := by
  have hn : n.toNat < Word.count32 := n.toNat_lt
  rw [position, ofNumeral?_numeral, Option.filter_some, if_pos (decide_eq_true hn),
    Option.getD_some, UInt32.ofNat_toNat]

variable {d : Diagnostic} {ds : List Diagnostic} {more ls after : List (List Char)}

theorem Diagnostic.Proper.isTail (h : d.Proper) :
    IsTail (place (numeral d.line.toNat) (numeral d.column.toNat) ++ (levelWord d.level ++
      ' ' :: 'T' :: 'S' :: (d.number ++ ':' :: ' ' :: d.message))) d.tail :=
  ⟨d.number, isDigits_of_isDigit (numeral_ne_nil _) (all_isDigit_numeral _),
    isDigits_of_isDigit (numeral_ne_nil _) (all_isDigit_numeral _),
    isDigits_of_isDigit h.number.1 h.number.2, rfl, rfl⟩

theorem diagnostic?_header (h : d.Proper) : diagnostic? d.header = some (d.file, d.tail) := by
  obtain ⟨c, hc, hblank⟩ := h.file.head
  obtain ⟨file, hfile⟩ := List.head?_eq_some_iff.1 hc
  have hplaceless := h.placeless
  rw [hfile] at hplaceless
  have hsplit := split?_append hplaceless.tail h.isTail
  rw [Diagnostic.header, hfile, List.cons_append, diagnostic?, hsplit, if_neg (by simp [hblank])]
  rfl

theorem report_tail (h : d.Proper) :
    report d.file d.tail = { d with more := [] : Diagnostic }.reading := by
  have hmessage : joinLines [d.message] = d.message := by simp [joinLines]
  simp [report, Diagnostic.tail, Diagnostic.reading, position_numeral, h.file.trim_eq, hmessage]

theorem step_header (last : Option Annotation) (h : d.Proper) :
    reader.step last d.header =
      (last.toList, some { d with more := [] : Diagnostic }.reading) := by
  simp only [reader, diagnostic?_header h, report_tail h]

theorem step_more {line indent : List Char} (h : IsIndent indent) (hline : Framed line) :
    reader.step (some d.reading) (indent ++ line) = ([], some (d.add line).reading) := by
  have hmessage : String.ofList (joinLines (d.message :: d.more)) ++ "\n" ++ String.ofList line =
      String.ofList (joinLines (d.message :: (d.more ++ [line]))) := by
    rw [joinLines_concat, ← String.toList_inj]
    simp
  rw [step_indented _ h hline]
  simp only [Diagnostic.reading, Diagnostic.add, hmessage]

/-! ## Output -/

/-- The lines of a message behind its first one, each behind an indentation, among noise. -/
inductive Continued : (more : List (List Char)) → (ls : List (List Char)) → Prop where
  | nil : Continued [] []
  | noise {line : List Char} {more ls : List (List Char)} : Noise line → Continued more ls →
      Continued more (line :: ls)
  | line {indent line : List Char} {more ls : List (List Char)} : IsIndent indent →
      Continued more ls → Continued (line :: more) ((indent ++ line) :: ls)

/-- The lines of diagnostics among noise. -/
inductive Written : (ds : List Diagnostic) → (ls : List (List Char)) → Prop where
  | nil : Written [] []
  | noise {line : List Char} {ds : List Diagnostic} {ls : List (List Char)} : Noise line →
      Written ds ls → Written ds (line :: ls)
  | diagnostic {d : Diagnostic} {ds : List Diagnostic} {ls after : List (List Char)} :
      Continued d.more ls → Written ds after → Written (d :: ds) (d.header :: (ls ++ after))

theorem run_cons (last : Option Annotation) (line : List Char) (ls : List (List Char)) :
    reader.run last (line :: ls) =
      (reader.step last line).1 ++ reader.run (reader.step last line).2 ls := rfl

theorem run_continued (h : Continued more ls) (hmore : ∀ line ∈ more, Framed line)
    (d : Diagnostic) (after : List (List Char)) :
    reader.run (some d.reading) (ls ++ after) =
      reader.run (some { d with more := d.more ++ more : Diagnostic }.reading) after := by
  -- The diagnostic that the reader holds grows with each line, so it is any one here.
  induction h generalizing d with
  | nil => simp
  | noise hnoise _ ih =>
    rw [List.cons_append, run_cons, step_noise _ hnoise, List.nil_append, ih hmore]
  | @line indent line more ls hindent _ ih =>
    have hline := hmore line List.mem_cons_self
    have hrest : ∀ l ∈ more, Framed l := fun l hl => hmore l (List.mem_cons_of_mem line hl)
    rw [List.cons_append, run_cons, step_more hindent hline, List.nil_append, ih hrest]
    simp [Diagnostic.add]

theorem run_written (h : Written ds ls) (hds : ∀ d ∈ ds, d.Proper) (last : Option Annotation) :
    reader.run last ls = last.toList ++ ds.map Diagnostic.reading := by
  -- What the reader holds is given at the next header or at the end, so the state is any one.
  induction h generalizing last with
  | nil => simp [Reader.run, reader]
  | noise hnoise _ ih => rw [run_cons, step_noise _ hnoise, List.nil_append, ih hds]
  | @diagnostic d ds ls after hmore _ ih =>
    have hd := hds d List.mem_cons_self
    have hrest : ∀ e ∈ ds, e.Proper := fun e he => hds e (List.mem_cons_of_mem d he)
    rw [run_cons, step_header _ hd, run_continued hmore hd.more, ih hrest]
    rfl

/-- Output that is written line by line, with any line ends, from a list of diagnostics and noise
gives the annotations of these diagnostics, in their order. -/
theorem diagnostics_read_back {output : String} (hds : ∀ d ∈ ds, d.Proper) (hls : Written ds ls)
    (houtput : Typed ls output.toList) :
    reader.read output = ds.map Diagnostic.reading := by
  rw [Reader.read, Reader.readChars, houtput.lines_eq]
  exact run_written hls hds none

theorem placeless_of_not_mem (h : ' ' ∉ file) : Placeless file := by
  intro line column _ _ hplace
  apply h
  apply hplace.subset
  simp [place]

/-- A diagnostic whose file name holds parentheses. -/
def inPage : Diagnostic :=
  { file := "app/(auth)/page(1,2).tsx".toList, line := 3, column := 7, level := .error
    number := "2322".toList, message := "Type 'null' is not".toList
    more := ["assignable to 'string'.".toList] }

/-- A message of one empty line. -/
def inBase : Diagnostic :=
  { file := "b.ts".toList, line := 1, column := 4294967295, level := .notice
    number := "6".toList, message := [], more := [] }

theorem proper_inPage : inPage.Proper where
  file := ⟨⟨'a', rfl, rfl⟩, 'x', rfl, rfl⟩
  placeless := placeless_of_not_mem (by decide)
  number := by decide
  more line hline := by
    obtain rfl := List.mem_singleton.1 hline
    exact ⟨⟨'a', rfl, rfl⟩, '.', rfl, rfl⟩

theorem proper_inBase : inBase.Proper where
  file := ⟨⟨'b', rfl, rfl⟩, 's', rfl, rfl⟩
  placeless := placeless_of_not_mem (by decide)
  number := by decide
  more line hline := absurd hline List.not_mem_nil

/-- Output of the compiler with both line ends. -/
def compiled : String := "\n".intercalate
  ["$ tsc --noEmit\r", "app/(auth)/page(1,2).tsx(3,7): error TS2322: Type 'null' is not\r", "",
    "\tassignable to 'string'.", "b.ts(1,4294967295): message TS6: ", "Found 1 error."]

theorem typed_compiled :
    Typed ["$ tsc --noEmit".toList, inPage.header, [], ['\t'] ++ "assignable to 'string'.".toList,
      inBase.header, "Found 1 error.".toList] compiled.toList := by
  have htext : compiled.toList = "$ tsc --noEmit".toList ++ '\r' :: '\n' :: (inPage.header ++
      '\r' :: '\n' :: ([] ++ '\n' :: (['\t'] ++ "assignable to 'string'.".toList ++ '\n' ::
        (inBase.header ++ '\n' :: "Found 1 error.".toList)))) := by decide +kernel
  rw [htext]
  apply Typed.carriageReturn (by decide)
  apply Typed.carriageReturn (by decide)
  apply Typed.lineFeed (by decide) (by decide)
  apply Typed.lineFeed (by decide) (by decide)
  apply Typed.lineFeed (by decide) (by decide)
  exact Typed.last (by decide) (by decide)

theorem diagnostics_read_back_compiled :
    reader.read compiled =
      [{ level := .error, file := "app/(auth)/page(1,2).tsx", line := 3, column := 7
         title := some "TS2322", message := "Type 'null' is not\nassignable to 'string'." },
       { level := .notice, file := "b.ts", line := 1, column := 4294967295, title := some "TS6"
         message := "" }] := by
  have hstart : Noise "$ tsc --noEmit".toList :=
    .inr ⟨by decide, by decide, diagnostic?_eq_none_iff.1 (by decide)⟩
  have hend : Noise "Found 1 error.".toList :=
    .inr ⟨by decide, by decide, diagnostic?_eq_none_iff.1 (by decide)⟩
  have hmore : Continued inPage.more [[], ['\t'] ++ "assignable to 'string'.".toList] :=
    .noise (.inl rfl) (.line ⟨by decide, by simp⟩ .nil)
  have hwritten := Written.noise hstart (.diagnostic (d := inPage) hmore
    (.diagnostic (d := inBase) .nil (.noise hend .nil)))
  have hds : ∀ d ∈ [inPage, inBase], d.Proper := by
    simp [proper_inPage, proper_inBase]
  exact diagnostics_read_back hds hwritten typed_compiled

end Steward.Output.Tsc
