import Steward.Proofs.Annotation.Escape

/-!
# Annotation lines read back

No written property holds a colon, a comma or a line end, and only messages hold spaces or colons
behind the second mark. So the line of an annotation is cut where it was put together, whatever
characters stand in its texts.

* `read_properties`: the properties of an annotation read back.
* `ofChars_lineChars`: the line of an annotation reads back.
* `render_reads_back`: so do the lines of a list of annotations, one by one.
-/

namespace Steward.Annotation

open Text

/-! ## Plain characters -/

theorem plain_of_isAlphanum {c : Char} (h : c.isAlphanum = true) : Plain c where
  lineEnd := by
    have hr : c ≠ '\r' := by rintro rfl; cases h
    have hn : c ≠ '\n' := by rintro rfl; cases h
    simp [isLineEnd, hr, hn]
  colon := by rintro rfl; cases h
  comma := by rintro rfl; cases h

/-- A written property: a name of letters, and a value of plain characters. -/
structure IsProperty (p name value : List Char) : Prop where
  parts : p = name ++ '=' :: value
  name : name.all Char.isAlphanum = true
  value : ∀ c ∈ value, Plain c

theorem isProperty_text {name : String} (h : name.toList.all Char.isAlphanum = true)
    (value : String) :
    IsProperty (textProperty name value) name.toList (escapeProperty value.toList) where
  parts := rfl
  name := h
  value _ hc := plain_of_mem_escapeProperty hc

theorem isProperty_number {name : String} (h : name.toList.all Char.isAlphanum = true)
    (n : UInt32) : IsProperty (numberProperty name n) name.toList (numeral n.toNat) where
  parts := rfl
  name := h
  value c hc := by
    have hdigit : c.isDigit = true := List.all_eq_true.1 (all_isDigit_numeral n.toNat) c hc
    exact plain_of_isAlphanum (by rw [Char.isAlphanum, hdigit, Bool.or_true])

theorem IsProperty.plain {p name value : List Char} (h : IsProperty p name value) :
    ∀ c ∈ p, Plain c := by
  intro c hc
  rw [h.parts] at hc
  rcases List.mem_append.1 hc with hc | hc
  · exact plain_of_isAlphanum (List.all_eq_true.1 h.name c hc)
  rcases List.mem_cons.1 hc with rfl | hc
  · exact ⟨rfl, by decide, by decide⟩
  · exact h.value c hc

theorem isProperty_of_mem {a : Annotation} {p : List Char} (h : p ∈ a.properties) :
    ∃ name value, IsProperty p name value := by
  simp only [properties, List.mem_append, List.mem_cons, List.not_mem_nil, or_false,
    Option.mem_toList, Option.map_eq_some_iff] at h
  rcases h with (((rfl | rfl | rfl) | ⟨n, -, rfl⟩) | ⟨n, -, rfl⟩) | ⟨t, -, rfl⟩
  · exact ⟨_, _, isProperty_text (by decide) a.file⟩
  · exact ⟨_, _, isProperty_number (by decide) a.line⟩
  · exact ⟨_, _, isProperty_number (by decide) a.column⟩
  · exact ⟨_, _, isProperty_number (by decide) n⟩
  · exact ⟨_, _, isProperty_number (by decide) n⟩
  · exact ⟨_, _, isProperty_text (by decide) t⟩

/-! ## Properties -/

theorem properties_ne_nil (a : Annotation) : a.properties ≠ [] := by
  unfold properties
  exact List.cons_ne_nil _ _

/-- The written properties come apart again. -/
theorem pieces_properties (a : Annotation) :
    (splitOn ',' (List.intercalate [','] a.properties)).filter (!·.isEmpty) = a.properties := by
  have hsplit : splitOn ',' (List.intercalate [','] a.properties) = a.properties := by
    refine splitOn_intercalate (properties_ne_nil a) fun p hp hc => ?_
    obtain ⟨name, value, h⟩ := isProperty_of_mem hp
    exact (h.plain ',' hc).comma rfl
  rw [hsplit]
  refine List.filter_eq_self.2 fun p hp => ?_
  obtain ⟨name, value, h⟩ := isProperty_of_mem hp
  rw [h.parts]
  cases name <;> rfl

theorem readNumber_numeral (property : String) (n : UInt32) :
    readNumber property (numeral n.toNat) = .ok n := by
  rw [readNumber, ofUnsigned?_numeral n.toNat_lt]
  simp

theorem readText_escape (s : String) : readText (escape s.toList) = s := by
  rw [readText, unescape_escape, String.ofList_toList]

theorem readText_escapeProperty (s : String) : readText (escapeProperty s.toList) = s := by
  rw [readText, unescape_escapeProperty, String.ofList_toList]

section
variable (malformed : Fault) (p : Properties) (rest : List (List Char))

/-- One property is cut at its first equals sign, which its name does not hold. -/
theorem read_cons {name : String} {value : List Char} {q : Properties}
    (h : name.toList.all Char.isAlphanum = true) (hput : p.put name value = .ok q) :
    Properties.read malformed p ((name.toList ++ '=' :: value) :: rest) =
      Properties.read malformed q rest := by
  have hname : '=' ∉ name.toList := fun hc => absurd (List.all_eq_true.1 h '=' hc) (by decide)
  have hcut : cut? ['='] (name.toList ++ '=' :: value) = some (name.toList, value) :=
    cut?_append [] value hname
  rw [Properties.read, hcut]
  simp only [String.ofList_toList, hput]
  rfl

theorem read_nil : Properties.read malformed p [] = .ok p := rfl

theorem read_file (v : String) :
    Properties.read malformed p (textProperty "file" v :: rest) =
      Properties.read malformed { p with file := some v } rest :=
  read_cons malformed p rest (by decide) (by simp [Properties.put, readText_escapeProperty])

theorem read_line (n : UInt32) :
    Properties.read malformed p (numberProperty "line" n :: rest) =
      Properties.read malformed { p with line := some n } rest :=
  read_cons malformed p rest (by decide) (by simp [Properties.put, readNumber_numeral, Except.map])

theorem read_column (n : UInt32) :
    Properties.read malformed p (numberProperty "col" n :: rest) =
      Properties.read malformed { p with column := some n } rest :=
  read_cons malformed p rest (by decide) (by simp [Properties.put, readNumber_numeral, Except.map])

theorem read_endLine (n : UInt32) :
    Properties.read malformed p (numberProperty "endLine" n :: rest) =
      Properties.read malformed { p with endLine := some n } rest :=
  read_cons malformed p rest (by decide) (by simp [Properties.put, readNumber_numeral, Except.map])

theorem read_endColumn (n : UInt32) :
    Properties.read malformed p (numberProperty "endColumn" n :: rest) =
      Properties.read malformed { p with endColumn := some n } rest :=
  read_cons malformed p rest (by decide) (by simp [Properties.put, readNumber_numeral, Except.map])

theorem read_title (v : String) :
    Properties.read malformed p (textProperty "title" v :: rest) =
      Properties.read malformed { p with title := some v } rest :=
  read_cons malformed p rest (by decide) (by simp [Properties.put, readText_escapeProperty])

end

/-- What is read of the properties of an annotation. -/
def Properties.of (a : Annotation) : Properties :=
  { file := some a.file, line := some a.line, column := some a.column, endLine := a.endLine
    endColumn := a.endColumn, title := a.title }

theorem read_properties (malformed : Fault) (a : Annotation) :
    Properties.read malformed {} a.properties = .ok (.of a) := by
  obtain ⟨level, file, line, column, endLine, endColumn, title, message⟩ := a
  show Properties.read malformed {} (textProperty "file" file :: numberProperty "line" line ::
    numberProperty "col" column :: ((endLine.map (numberProperty "endLine")).toList ++
      (endColumn.map (numberProperty "endColumn")).toList ++
      (title.map (textProperty "title")).toList)) = _
  rw [read_file, read_line, read_column]
  cases endLine <;> cases endColumn <;> cases title <;>
    simp only [Option.map_none, Option.map_some, Option.toList_none, Option.toList_some,
      List.nil_append, List.append_nil, List.cons_append, read_endLine, read_endColumn, read_title,
      read_nil, Properties.of]

theorem toAnnotation_of (a : Annotation) :
    Properties.toAnnotation (.of a) a.level a.message = .ok a := rfl

/-! ## Lines -/

/-- What stands between the two marks. -/
def headChars (a : Annotation) : List Char :=
  a.level.name.toList ++ ' ' :: List.intercalate [','] a.properties

theorem lineChars_eq (a : Annotation) :
    a.lineChars = mark ++ (a.headChars ++ ':' :: ([':'] ++ escape a.message.toList)) := by
  simp [lineChars, headChars, mark]

theorem isAlphanum_of_mem_name {l : Level} {c : Char} (h : c ∈ l.name.toList) :
    c.isAlphanum = true := by
  have hall : l.name.toList.all Char.isAlphanum = true := by cases l <;> decide
  exact List.all_eq_true.1 hall c h

theorem mem_intercalate {sep : Char} {pieces : List (List Char)} {c : Char}
    (h : c ∈ List.intercalate [sep] pieces) : c = sep ∨ ∃ p ∈ pieces, c ∈ p := by
  induction pieces with
  | nil => cases h
  | cons p pieces ih =>
    cases pieces with
    | nil => exact .inr ⟨p, .head _, by simpa using h⟩
    | cons q pieces =>
      rw [List.intercalate_cons_cons, List.append_assoc, List.singleton_append] at h
      rcases List.mem_append.1 h with h | h
      · exact .inr ⟨p, .head _, h⟩
      rcases List.mem_cons.1 h with h | h
      · exact .inl h
      rcases ih h with h | ⟨r, hr, hc⟩
      · exact .inl h
      · exact .inr ⟨r, .tail _ hr, hc⟩

/-- The head holds commas, but no colon and no line end. -/
theorem mem_headChars {a : Annotation} {c : Char} (h : c ∈ a.headChars) :
    isLineEnd c = false ∧ c ≠ ':' := by
  rcases List.mem_append.1 h with h | h
  · have hplain := plain_of_isAlphanum (isAlphanum_of_mem_name h)
    exact ⟨hplain.lineEnd, hplain.colon⟩
  rcases List.mem_cons.1 h with rfl | h
  · decide
  rcases mem_intercalate h with rfl | ⟨p, hp, hc⟩
  · decide
  · obtain ⟨name, value, hproperty⟩ := isProperty_of_mem hp
    have hplain := hproperty.plain c hc
    exact ⟨hplain.lineEnd, hplain.colon⟩

theorem not_isLineEnd_of_mem_lineChars {a : Annotation} {c : Char} (h : c ∈ a.lineChars) :
    isLineEnd c = false := by
  have hmark : mark.all (!isLineEnd ·) = true := by decide
  rw [lineChars_eq] at h
  rcases List.mem_append.1 h with h | h
  · simpa using List.all_eq_true.1 hmark c h
  rcases List.mem_append.1 h with h | h
  · exact (mem_headChars h).1
  rcases List.mem_cons.1 h with rfl | h
  · rfl
  rcases List.mem_cons.1 h with rfl | h
  · rfl
  · exact not_isLineEnd_of_mem_escape h

/-- The line of an annotation reads back. -/
theorem ofChars_lineChars (a : Annotation) : ofChars a.lineChars = .ok a := by
  have htrim : trimEndBy isLineEnd a.lineChars = a.lineChars :=
    trimEndBy_eq_self fun c hc => not_isLineEnd_of_mem_lineChars hc
  -- The head holds no colon, so the first mark behind it is the one before the message.
  have hcut : cut? mark (a.headChars ++ ':' :: ([':'] ++ escape a.message.toList)) =
      some (a.headChars, escape a.message.toList) :=
    cut?_append [':'] _ fun hc => (mem_headChars hc).2 rfl
  have hhead : cut? [' '] a.headChars =
      some (a.level.name.toList, List.intercalate [','] a.properties) :=
    cut?_append [] _ fun hc => absurd (isAlphanum_of_mem_name hc) (by decide)
  unfold ofChars
  simp only [htrim]
  rw [lineChars_eq, after?_append]
  simp only [hcut, hhead, Option.getD_some, String.ofList_toList, Level.read?_name,
    pieces_properties, read_properties, readText_escape]
  exact toAnnotation_of a

theorem ofLine_toLine (a : Annotation) : ofLine a.toLine = .ok a := by
  rw [ofLine, toLine, String.toList_ofList]
  exact ofChars_lineChars a

/-- The line of every annotation reads back. A list of annotations is written as one line for each,
with a line feed at its end and no line end inside, and the lines read back in their order. -/
theorem render_reads_back :
    (∀ a : Annotation, ofLine a.toLine = .ok a) ∧
      ∀ as : List Annotation, ∃ ls : List String, ls.length = as.length ∧
        (render as).toList = ls.flatMap (fun l => l.toList ++ ['\n']) ∧
        (∀ l ∈ ls, '\r' ∉ l.toList ∧ '\n' ∉ l.toList) ∧ ls.map ofLine = as.map .ok := by
  refine ⟨ofLine_toLine, fun as => ⟨as.map toLine, List.length_map _, ?_, ?_, ?_⟩⟩
  · rw [render, String.toList_ofList, List.flatMap_map]
    refine congrArg (List.flatMap · as) (funext fun a => ?_)
    rw [toLine, String.toList_ofList]
  · intro l hl
    obtain ⟨a, _, rfl⟩ := List.mem_map.1 hl
    rw [toLine, String.toList_ofList]
    constructor <;> intro hc
    · cases not_isLineEnd_of_mem_lineChars hc
    · cases not_isLineEnd_of_mem_lineChars hc
  · rw [List.map_map]
    refine List.map_congr_left fun a _ => ?_
    rw [Function.comp_apply, ofLine_toLine]

end Steward.Annotation
