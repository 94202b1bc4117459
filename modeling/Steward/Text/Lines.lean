/-!
# Lines of a text

A line ends at a line feed or at the end of the text. A carriage return right before the line feed
belongs to the line end, and a text that ends in a line feed has no empty last line.

* `lines_append`: a text cut right after a line feed has the lines of both parts.
* `Typed`: a text of lines, each with a line feed behind it or with a carriage return and a line
  feed; the last line may end with the text.
* `Typed.lines_eq`, `typed_lines`: the lines of such a text are these, and every text is such a
  text.
* `typed_joinLines`: lines joined by line feeds are typed, if the last is not empty.
-/

namespace Steward.Text

/-- The lines of a text, without their ends. -/
def lines : List Char → List (List Char)
  | [] => []
  | '\n' :: rest => [] :: lines rest
  | '\r' :: '\n' :: rest => [] :: lines rest
  | c :: rest =>
    match lines rest with
    | [] => [[c]]
    | line :: more => (c :: line) :: more

/-- The lines of a text joined by line feeds, with none after the last. -/
def joinLines (ls : List (List Char)) : List Char := List.intercalate ['\n'] ls

/-- The last `n` lines of a text, or all where there are fewer, joined by line feeds. -/
def lastLines (n : Nat) (s : String) : String :=
  let ls := lines s.toList
  String.ofList (joinLines (ls.drop (ls.length - n)))

theorem lines_ne_nil {c : Char} {s : List Char} : lines (c :: s) ≠ [] := by
  unfold lines
  split <;> (try split) <;> simp_all

/-- A character that ends no line is the first of its line. -/
theorem lines_cons {c : Char} {rest : List Char} (hc : c ≠ '\n')
    (hr : ∀ more, c = '\r' → rest ≠ '\n' :: more) :
    lines (c :: rest) =
      match lines rest with
      | [] => [[c]]
      | line :: more => (c :: line) :: more := by
  rw [lines]
  · exact hc
  · exact hr

theorem lines_append_lineFeed (a b : List Char) :
    lines (a ++ '\n' :: b) = lines (a ++ ['\n']) ++ lines b := by
  fun_induction lines a with
  | case1 => simp [lines]
  | case2 rest ih => simp [lines, ih]
  | case3 rest ih => simp [lines, ih]
  | case4 c rest h1 h2 hnil ih =>
    obtain rfl : rest = [] := by
      cases rest with
      | nil => rfl
      | cons d ds => exact absurd hnil lines_ne_nil
    by_cases hc : c = '\r'
    · subst hc; simp [lines]
    · simp [lines_cons h1 (fun _ h => absurd h hc), lines]
  | case5 c rest h1 h2 line more hl ih =>
    have hr : ∀ t more, c = '\r' → rest ++ '\n' :: t ≠ '\n' :: more := by
      intro t more hc he
      cases rest with
      | nil => simp [lines] at hl
      | cons d ds =>
        simp only [List.cons_append, List.cons.injEq] at he
        exact h2 ds hc (by rw [he.1])
    rw [List.cons_append, List.cons_append, lines_cons h1 (hr b), lines_cons h1 (hr []), ih]
    cases hm : lines (rest ++ ['\n']) with
    | nil =>
      cases rest with
      | nil => simp [lines] at hm
      | cons d ds => exact absurd hm lines_ne_nil
    | cons l m => simp

/-- A text that ends in a line feed contributes its own lines and no others. -/
theorem lines_append {a : List Char} (b : List Char) (h : a = [] ∨ a.getLast? = some '\n') :
    lines (a ++ b) = lines a ++ lines b := by
  rcases h with rfl | h
  · simp [lines]
  · obtain ⟨a', rfl⟩ := List.getLast?_eq_some_iff.1 h
    rw [List.append_assoc, List.singleton_append, lines_append_lineFeed]

/-! ## Texts typed line by line -/

/-- The text is made of these lines and their ends. -/
inductive Typed : (ls : List (List Char)) → (text : List Char) → Prop where
  | nil : Typed [] []
  | last {line : List Char} : line ≠ [] → '\n' ∉ line → Typed [line] line
  | lineFeed {line text : List Char} {ls : List (List Char)} : '\n' ∉ line →
      line.getLast? ≠ some '\r' → Typed ls text → Typed (line :: ls) (line ++ '\n' :: text)
  | carriageReturn {line text : List Char} {ls : List (List Char)} : '\n' ∉ line →
      Typed ls text → Typed (line :: ls) (line ++ '\r' :: '\n' :: text)

variable {line lineEnd text : List Char} {ls : List (List Char)}

/-- A text that ends no line but its last is one line. -/
theorem lines_append_lineEnd (h : '\n' ∉ line) (hend : lines lineEnd = [[]])
    (hlast : lineEnd.head? = some '\n' → line.getLast? ≠ some '\r') :
    lines (line ++ lineEnd) = [line] := by
  induction line with
  | nil => exact hend
  | cons c line ih =>
    simp only [List.mem_cons, not_or] at h
    have hrest : lines (line ++ lineEnd) = [line] := by
      apply ih h.2
      intro hhead hline
      apply hlast hhead
      rw [List.getLast?_cons, hline]
      rfl
    have hnext : ∀ more, c = '\r' → line ++ lineEnd ≠ '\n' :: more := by
      intro more hc heq
      cases line with
      | nil =>
        subst hc
        exact hlast (by simpa using congrArg List.head? heq) rfl
      | cons d line =>
        have hd : d = '\n' := (List.cons.inj heq).1
        simp [hd] at h
    rw [List.cons_append, lines_cons (Ne.symm h.1) hnext, hrest]

theorem lines_of_not_mem (hne : line ≠ []) (h : '\n' ∉ line) : lines line = [line] := by
  induction line with
  | nil => exact absurd rfl hne
  | cons c line ih =>
    simp only [List.mem_cons, not_or] at h
    have hnext : ∀ more, c = '\r' → line ≠ '\n' :: more := by
      intro more _ heq
      exact h.2 (heq ▸ List.mem_cons_self)
    rw [lines_cons (Ne.symm h.1) hnext]
    cases line with
    | nil => rfl
    | cons d line => rw [ih (List.cons_ne_nil d line) h.2]

theorem Typed.lines_eq (h : Typed ls text) : lines text = ls := by
  induction h with
  | nil => rfl
  | last hne h => exact lines_of_not_mem hne h
  | lineFeed h hlast _ ih =>
    rw [lines_append_lineFeed, lines_append_lineEnd h rfl fun _ => hlast, ih, List.singleton_append]
  | @carriageReturn line text ls h _ ih =>
    have hend : lines (line ++ ['\r', '\n']) = [line] :=
      lines_append_lineEnd h rfl fun hhead => absurd hhead (by decide)
    have hsplit : line ++ '\r' :: '\n' :: text = line ++ ['\r'] ++ '\n' :: text := by simp
    rw [hsplit, lines_append_lineFeed, List.append_assoc, List.singleton_append, hend, ih,
      List.singleton_append]

/-- A character that ends no line, before a text with lines. -/
theorem Typed.cons {c : Char} (h : Typed (line :: ls) text) (hc : c ≠ '\n')
    (hr : ∀ more, c = '\r' → text ≠ '\n' :: more) : Typed ((c :: line) :: ls) (c :: text) := by
  cases h with
  | last hne h => exact .last (List.cons_ne_nil c line) (by simp [Ne.symm hc, h])
  | lineFeed h hlast ht =>
    refine .lineFeed (by simp [Ne.symm hc, h]) ?_ ht
    cases line with
    | nil =>
      intro hlast
      obtain rfl : c = '\r' := by simpa using hlast
      exact hr _ rfl rfl
    | cons d line => rwa [List.getLast?_cons_cons]
  | carriageReturn h ht => exact .carriageReturn (by simp [Ne.symm hc, h]) ht

theorem typed_lines (text : List Char) : Typed (lines text) text := by
  fun_induction lines text with
  | case1 => exact .nil
  | case2 rest ih => exact .lineFeed List.not_mem_nil (by simp) ih
  | case3 rest ih => exact .carriageReturn List.not_mem_nil ih
  | case4 c rest hc hr hnil ih =>
    obtain rfl : rest = [] := by
      cases rest with
      | nil => rfl
      | cons d rest => exact absurd hnil lines_ne_nil
    exact .last (List.cons_ne_nil c []) (by simpa using Ne.symm hc)
  | case5 c rest hc hr line more hl ih =>
    rw [hl] at ih
    exact ih.cons hc fun more hcr heq => hr more hcr heq

theorem typed_joinLines (h : ∀ l ∈ ls, '\n' ∉ l ∧ l.getLast? ≠ some '\r')
    (hlast : ls.getLast? ≠ some []) : Typed ls (joinLines ls) := by
  induction ls with
  | nil => exact .nil
  | cons line ls ih =>
    obtain ⟨hline, hend⟩ := h line List.mem_cons_self
    cases ls with
    | nil =>
      rw [joinLines, List.intercalate_singleton]
      exact .last (fun hnil => hlast (hnil ▸ rfl)) hline
    | cons next ls =>
      rw [joinLines, List.intercalate_cons_cons, List.append_assoc, List.singleton_append]
      refine .lineFeed hline hend (ih (fun l hl => h l (List.mem_cons_of_mem line hl)) ?_)
      rwa [List.getLast?_cons_cons] at hlast

theorem lines_intercalate {ls : List String}
    (h : ∀ l ∈ ls.map String.toList, '\n' ∉ l ∧ l.getLast? ≠ some '\r')
    (hlast : (ls.map String.toList).getLast? ≠ some []) :
    lines ("\n".intercalate ls).toList = ls.map String.toList := by
  rw [String.toList_intercalate]
  exact (typed_joinLines h hlast).lines_eq

theorem joinLines_concat (line l : List Char) (ls : List (List Char)) :
    joinLines (line :: (ls ++ [l])) = joinLines (line :: ls) ++ '\n' :: l := by
  induction ls generalizing line with
  | nil => simp [joinLines, List.intercalate_cons_cons]
  | cons m ls ih =>
    simp only [joinLines, List.cons_append, List.intercalate_cons_cons] at ih ⊢
    rw [ih, List.append_assoc, List.append_assoc, List.append_assoc]

end Steward.Text
