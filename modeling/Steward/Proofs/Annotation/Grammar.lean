import Steward.Proofs.Annotation.Pieces
import Steward.Proofs.Text.Trim

/-!
# The grammar of annotation lines

A line is cut at its first two marks, then at a space and at commas, and each cut takes the first
place there is. So the parts of a line are those it can be written with, and nothing but these parts
decides what is read.

* `IsLine`: a line and the parts that it is made of.
* `ofChars_of_isLine`, `exists_isLine`: only the parts are read, and what is read has parts.
* `Parts.Proper`, `Parts.Gives`, `ofChars_eq_ok_iff_gives`: which parts are read, and to what.
* `ofLine_reads_grammar`: which lines are read, to what, and what makes no difference to that.
  `refusal_follows_order`: it may make one to the refusal of a line.
-/

namespace Steward.Annotation

open Text

/-! ## Parts of a line -/

/-- What a line is made of: the name of a level, pieces between commas, and a message. -/
structure Parts where
  name : List Char
  pieces : List (List Char)
  message : List Char

/-- The text between the two marks, where pieces may stand behind the first space. -/
def IsHead (head name : List Char) (pieces : List (List Char)) : Prop :=
  ' ' ∉ name ∧
    (head = name ∧ pieces = [] ∨
      head = name ++ ' ' :: List.intercalate [','] pieces ∧ pieces ≠ [] ∧ ∀ p ∈ pieces, ',' ∉ p)

/-- The line is made of these parts, and line ends. -/
structure IsLine (s : List Char) (l : Parts) : Prop where
  written : ∃ head ends, s = mark ++ (head ++ mark ++ l.message) ++ ends ∧
    ¬ mark <:+: head ++ [':'] ∧ IsHead head l.name l.pieces ∧ ∀ c ∈ ends, isLineEnd c = true
  unended : ∀ c, l.message.getLast? = some c → isLineEnd c = false

variable {s : List Char} {l : Parts} {a : Annotation}

theorem IsHead.cut {head name : List Char} {pieces : List (List Char)}
    (h : IsHead head name pieces) :
    ∃ rest, (cut? [' '] head).getD (head, []) = (name, rest) ∧
      (splitOn ',' rest).filter (!·.isEmpty) = pieces.filter (!·.isEmpty) := by
  obtain ⟨hname, ⟨rfl, rfl⟩ | ⟨rfl, hpieces⟩⟩ := h
  · have hcut : cut? [' '] head = none := by
      rw [Option.eq_none_iff_forall_not_mem]
      intro q hq
      obtain ⟨rfl, -⟩ := cut?_singleton_eq_some_iff.1 hq
      simp at hname
    rw [hcut]
    exact ⟨[], rfl, rfl⟩
  · rw [cut?_singleton_eq_some_iff.2 ⟨rfl, hname⟩, Option.getD_some]
    refine ⟨_, rfl, ?_⟩
    rw [splitOn_intercalate hpieces.1 hpieces.2]

theorem exists_isHead (head : List Char) : ∃ name pieces, IsHead head name pieces := by
  cases hcut : cut? [' '] head with
  | none =>
    have hname : ' ' ∉ head := by
      intro hmem
      obtain ⟨before, rest, rfl, hbefore⟩ := List.eq_append_cons_of_mem hmem
      rw [cut?_singleton_eq_some_iff.2 ⟨rfl, hbefore⟩] at hcut
      cases hcut
    exact ⟨head, [], hname, .inl ⟨rfl, rfl⟩⟩
  | some q =>
    obtain ⟨name, rest⟩ := q
    obtain ⟨rfl, hname⟩ := cut?_singleton_eq_some_iff.1 hcut
    have hpieces : ∀ p ∈ splitOn ',' rest, ',' ∉ p := fun p hp => not_mem_of_mem_splitOn hp
    refine ⟨name, splitOn ',' rest, hname, .inr ⟨?_, splitOn_ne_nil ',' rest, hpieces⟩⟩
    rw [intercalate_splitOn]

theorem mark_append_getLast? (head message : List Char) {c : Char}
    (h : (mark ++ (head ++ mark ++ message)).getLast? = some c) :
    message.getLast? = some c ∨ c = ':' := by
  cases message with
  | nil =>
    have hend : mark ++ (head ++ mark ++ []) = mark ++ head ++ [':'] ++ [':'] := by simp [mark]
    rw [hend, List.getLast?_concat] at h
    exact .inr (Option.some.inj h).symm
  | cons b message =>
    rw [← List.append_assoc, List.getLast?_append, List.getLast?_cons, Option.some_or] at h
    rw [List.getLast?_cons]
    exact .inl h

theorem trimEndBy_mark_append {head message ends : List Char}
    (hends : ∀ c ∈ ends, isLineEnd c = true)
    (hlast : ∀ c, message.getLast? = some c → isLineEnd c = false) :
    trimEndBy isLineEnd (mark ++ (head ++ mark ++ message) ++ ends) =
      mark ++ (head ++ mark ++ message) := by
  refine trimEndBy_eq_iff.2 ⟨⟨ends, rfl, hends⟩, ?_⟩
  intro c hc
  rcases mark_append_getLast? head message hc with h | rfl
  · exact hlast c h
  · rfl

/-- How the parts of a line are read. -/
theorem ofChars_of_isLine (h : IsLine s l) :
    ofChars s = (Level.read? (String.ofList l.name)).elim
      (.error (.unknownLevel (String.ofList l.name))) fun level =>
        Properties.read (.malformed (String.ofList (trimEndBy isLineEnd s))) {}
            (l.pieces.filter (!·.isEmpty)) >>=
          fun p => p.toAnnotation level (readText l.message) := by
  obtain ⟨⟨head, ends, rfl, hfirst, hhead, hends⟩, hlast⟩ := h
  have hcut : cut? mark (head ++ mark ++ l.message) = some (head, l.message) :=
    (cut?_eq_some_iff (List.cons_ne_nil _ _)).2 ⟨rfl, hfirst⟩
  obtain ⟨rest, hname, hpieces⟩ := hhead.cut
  unfold ofChars
  rw [trimEndBy_mark_append hends hlast]
  simp only [after?_append, hcut, hname, hpieces]
  cases Level.read? (String.ofList l.name) <;> rfl

/-- What is read has parts. -/
theorem exists_isLine (h : ofChars s = .ok a) : ∃ l, IsLine s l := by
  obtain ⟨⟨ends, hs, hends⟩, hlast⟩ := trimEndBy_eq_iff.1 (rfl : trimEndBy isLineEnd s = _)
  unfold ofChars at h
  simp only at h
  -- Without a mark at the start, or without a second one, nothing is read.
  split at h
  · cases h
  · next body hbody =>
    split at h
    · cases h
    · next head message hcut =>
      obtain ⟨rfl, hfirst⟩ := (cut?_eq_some_iff (List.cons_ne_nil _ _)).1 hcut
      obtain ⟨name, pieces, hhead⟩ := exists_isHead head
      rw [after?_eq_some_iff.1 hbody] at hs hlast
      refine ⟨⟨name, pieces, message⟩, ⟨head, ends, hs, hfirst, hhead, hends⟩, ?_⟩
      intro c hc
      apply hlast
      rw [← List.append_assoc, List.getLast?_append, hc]
      rfl

/-! ## What a line gives -/

/-- The keys that must be there. -/
def requiredKeys : List String := ["file", "line", "col"]

/-- The parts name a level, every piece is sound, and no key is missing. -/
structure Parts.Proper (l : Parts) : Prop where
  level : String.ofList l.name ∈ ["error", "warning", "notice"]
  sound : ∀ piece ∈ l.pieces, Sound piece
  required : ∀ key ∈ requiredKeys, ∃ piece ∈ l.pieces, ∃ value, HasKey piece key value

/-- The annotation of the parts. -/
structure Parts.Gives (l : Parts) (a : Annotation) : Prop where
  level : l.name = a.level.name.toList
  file : Given IsText "file" l.pieces (some a.file)
  line : Given IsNumber "line" l.pieces (some a.line)
  column : Given IsNumber "col" l.pieces (some a.column)
  endLine : Given IsNumber "endLine" l.pieces a.endLine
  endColumn : Given IsNumber "endColumn" l.pieces a.endColumn
  title : Given IsText "title" l.pieces a.title
  message : IsText l.message a.message

theorem toAnnotation_eq_ok_iff {p : Properties} {level : Level} {message : String} :
    p.toAnnotation level message = .ok a ↔
      level = a.level ∧ p.file = some a.file ∧ p.line = some a.line ∧ p.column = some a.column ∧
        p.endLine = a.endLine ∧ p.endColumn = a.endColumn ∧ p.title = a.title ∧
        message = a.message := by
  obtain ⟨file, line, column, endLine, endColumn, title⟩ := p
  unfold Properties.toAnnotation
  cases file with
  | none => simp [Properties.need, bind, Except.bind]
  | some file =>
    cases line with
    | none => simp [Properties.need, bind, Except.bind]
    | some line =>
      cases column with
      | none => simp [Properties.need, bind, Except.bind]
      | some column =>
        obtain ⟨level', file', line', column', endLine', endColumn', title', message'⟩ := a
        simp only [Properties.need, bind, Except.bind, pure, Except.pure, Except.ok.injEq,
          Annotation.mk.injEq, Option.some.injEq]

theorem bind_eq_ok_iff {α β : Type} {x : Except Fault α} {f : α → Except Fault β} {b : β} :
    x >>= f = .ok b ↔ ∃ a, x = .ok a ∧ f a = .ok b := by
  cases x <;> simp [bind, Except.bind]

/-- The pieces of a line are read to its annotation in case they are sound. -/
theorem ofChars_eq_ok_iff (h : IsLine s l) :
    ofChars s = .ok a ↔
      (∀ piece ∈ l.pieces, Sound piece) ∧ String.ofList l.name = a.level.name ∧
        Properties.toAnnotation (.after {} l.pieces) a.level (readText l.message) = .ok a := by
  rw [ofChars_of_isLine h]
  cases hlevel : Level.read? (String.ofList l.name) with
  | none =>
    have hno : String.ofList l.name ≠ a.level.name := by
      intro heq
      rw [Level.read?_eq_some_iff.2 heq] at hlevel
      cases hlevel
    simp [hno]
  | some level =>
    rw [Level.read?_eq_some_iff.1 hlevel]
    constructor
    · intro h
      obtain ⟨p, hp, ha⟩ := bind_eq_ok_iff.1 h
      obtain ⟨hsound, rfl⟩ := read_eq_ok_iff.1 hp
      obtain ⟨rfl, -⟩ := toAnnotation_eq_ok_iff.1 ha
      exact ⟨hsound, rfl, ha⟩
    · intro h
      obtain ⟨hsound, hname, ha⟩ := h
      obtain rfl := Level.name_injective hname
      exact bind_eq_ok_iff.2 ⟨_, read_eq_ok_iff.2 ⟨hsound, rfl⟩, ha⟩

theorem gives_iff (hsound : ∀ piece ∈ l.pieces, Sound piece) :
    l.Gives a ↔ String.ofList l.name = a.level.name ∧
      Properties.toAnnotation (.after {} l.pieces) a.level (readText l.message) = .ok a := by
  have hnumber : ∀ key ∈ numberKeys, ∀ o, Given IsNumber key l.pieces o ↔
      given? number? key l.pieces = o := fun key hkey o => given_number_iff hsound hkey
  rw [toAnnotation_eq_ok_iff]
  simp only [Properties.after, Option.or_none, ← given_text_iff, true_and]
  rw [← hnumber "line" (by decide), ← hnumber "col" (by decide), ← hnumber "endLine" (by decide),
    ← hnumber "endColumn" (by decide)]
  constructor
  · intro h
    refine ⟨?_, h.file, h.line, h.column, h.endLine, h.endColumn, h.title, ?_⟩
    · rw [h.level, String.ofList_toList]
    · exact Option.some.inj (isText_iff.1 h.message)
  · intro h
    obtain ⟨hname, hfile, hline, hcolumn, hendLine, hendColumn, htitle, hmessage⟩ := h
    refine ⟨?_, hfile, hline, hcolumn, hendLine, hendColumn, htitle, ?_⟩
    · rw [← hname, String.toList_ofList]
    · exact isText_iff.2 (congrArg some hmessage)

theorem proper_of_gives (hsound : ∀ piece ∈ l.pieces, Sound piece) (h : l.Gives a) : l.Proper where
  level := by
    rw [h.level, String.ofList_toList]
    cases a.level <;> decide
  sound := hsound
  required key hkey := by
    simp only [requiredKeys, List.mem_cons, List.not_mem_nil, or_false] at hkey
    rcases hkey with rfl | rfl | rfl
    · exact exists_hasKey_of_given h.file
    · exact exists_hasKey_of_given h.line
    · exact exists_hasKey_of_given h.column

theorem exists_gives (h : l.Proper) : ∃ a, l.Gives a := by
  have hnumber : ∀ key ∈ numberKeys, Given IsNumber key l.pieces (given? number? key l.pieces) :=
    fun key hkey => (given_number_iff h.sound hkey).2 rfl
  have htext : ∀ key, Given IsText key l.pieces (given? text? key l.pieces) :=
    fun key => given_text_iff.2 rfl
  have hlevel : ∃ level : Level, String.ofList l.name = level.name := by
    have hname := h.level
    simp only [List.mem_cons, List.not_mem_nil, or_false] at hname
    rcases hname with hname | hname | hname
    · exact ⟨.error, hname⟩
    · exact ⟨.warning, hname⟩
    · exact ⟨.notice, hname⟩
  have hfile := htext "file"
  have hline := hnumber "line" (by decide)
  have hcolumn := hnumber "col" (by decide)
  obtain ⟨level, hlevel⟩ := hlevel
  obtain ⟨file, hsome⟩ := exists_given hfile (h.required "file" (by decide))
  rw [hsome] at hfile
  obtain ⟨line, hsome⟩ := exists_given hline (h.required "line" (by decide))
  rw [hsome] at hline
  obtain ⟨column, hsome⟩ := exists_given hcolumn (h.required "col" (by decide))
  rw [hsome] at hcolumn
  refine ⟨⟨level, file, line, column, _, _, _, readText l.message⟩, ?_, hfile, hline, hcolumn,
    hnumber "endLine" (by decide), hnumber "endColumn" (by decide), htext "title", ?_⟩
  · rw [← hlevel, String.toList_ofList]
  · exact isText_iff.2 rfl

/-- A line is read in case its parts are proper, to what they give. -/
theorem ofChars_eq_ok_iff_gives (h : IsLine s l) :
    ofChars s = .ok a ↔ l.Proper ∧ l.Gives a := by
  rw [ofChars_eq_ok_iff h]
  constructor
  · intro h
    obtain ⟨hsound, hread⟩ := h
    have hgives := (gives_iff hsound).2 hread
    exact ⟨proper_of_gives hsound hgives, hgives⟩
  · intro h
    obtain ⟨hproper, hgives⟩ := h
    exact ⟨hproper.sound, (gives_iff hproper.sound).1 hgives⟩

theorem toOption_eq_some_iff {α : Type} {x : Except Fault α} {a : α} :
    x.toOption = some a ↔ x = .ok a := by
  cases x <;> simp [Except.toOption]

theorem toOption_ofChars_of_rearranged {s' : List Char} {l' : Parts} (h : IsLine s l)
    (h' : IsLine s' l') (hname : l'.name = l.name) (hmessage : l'.message = l.message)
    (hpieces : Rearranged l.pieces l'.pieces) :
    (ofChars s').toOption = (ofChars s).toOption := by
  refine Option.ext fun a => ?_
  rw [toOption_eq_some_iff, toOption_eq_some_iff, ofChars_eq_ok_iff h, ofChars_eq_ok_iff h', hname,
    hmessage, hpieces.alike.sound, hpieces.alike.after_eq]

/-- A line is read in case its parts are proper, and every field of the annotation is what the last
piece with its key gives. Whether a line is refused, and what is read of it, depends neither on the
order of pieces with different keys nor on idle pieces; which refusal it is may depend on them. -/
theorem ofLine_reads_grammar (s : String) :
    ((∃ a, ofLine s = .ok a) ↔ ∃ l, IsLine s.toList l ∧ l.Proper) ∧
      (∀ a l, ofLine s = .ok a → IsLine s.toList l → l.Gives a) ∧
      ∀ (l l' : Parts) (s' : String), IsLine s.toList l → IsLine s'.toList l' → l'.name = l.name →
        l'.message = l.message → Rearranged l.pieces l'.pieces →
        (ofLine s').toOption = (ofLine s).toOption := by
  refine ⟨⟨?_, ?_⟩, ?_, ?_⟩
  · intro h
    obtain ⟨a, ha⟩ := h
    obtain ⟨l, hl⟩ := exists_isLine ha
    exact ⟨l, hl, ((ofChars_eq_ok_iff_gives hl).1 ha).1⟩
  · intro h
    obtain ⟨l, hl, hproper⟩ := h
    obtain ⟨a, ha⟩ := exists_gives hproper
    exact ⟨a, (ofChars_eq_ok_iff_gives hl).2 ⟨hproper, ha⟩⟩
  · intro a l ha hl
    exact ((ofChars_eq_ok_iff_gives hl).1 ha).2
  · intro l l' s' hl hl' hname hmessage hpieces
    exact toOption_ofChars_of_rearranged hl hl' hname hmessage hpieces

/-- The parts of a line with a repeated key, escapes and a plus sign. -/
def sparse : Parts where
  name := "error".toList
  pieces := ["title=a%2Cb".toList, "line=2".toList, "file=x.rs".toList, "col=+07".toList,
    "line=3".toList]
  message := "50%25::%0Ab".toList

/-- The same in another order, with an empty piece and one whose key is not known. -/
def crowded : Parts where
  name := "error".toList
  pieces := [[], "line=2".toList, "title=a%2Cb".toList, "from=ci".toList, "file=x.rs".toList,
    "col=+07".toList, "line=3".toList]
  message := "50%25::%0Ab".toList

theorem isLine_sparse :
    IsLine "::error title=a%2Cb,line=2,file=x.rs,col=+07,line=3::50%25::%0Ab\r\n".toList
      sparse where
  written := ⟨"error title=a%2Cb,line=2,file=x.rs,col=+07,line=3".toList, ['\r', '\n'],
    by decide +kernel, by decide +kernel,
    ⟨by decide, .inr ⟨by decide +kernel, by decide, by decide +kernel⟩⟩, by simp [isLineEnd]⟩
  unended c hc := by
    obtain rfl : 'b' = c := Option.some.inj hc
    rfl

theorem isLine_crowded :
    IsLine "::error ,line=2,title=a%2Cb,from=ci,file=x.rs,col=+07,line=3::50%25::%0Ab".toList
      crowded where
  written := ⟨"error ,line=2,title=a%2Cb,from=ci,file=x.rs,col=+07,line=3".toList, [],
    by decide +kernel, by decide +kernel,
    ⟨by decide, .inr ⟨by decide +kernel, by decide, by decide +kernel⟩⟩, by simp [isLineEnd]⟩
  unended c hc := by
    obtain rfl : 'b' = c := Option.some.inj hc
    rfl

theorem rearranged_sparse : Rearranged sparse.pieces crowded.pieces := by
  have htitle : HasKey "title=a%2Cb".toList "title" "a%2Cb".toList := ⟨by decide, by decide⟩
  have hline : HasKey "line=2".toList "line" "2".toList := ⟨by decide, by decide⟩
  have hfrom : HasKey "from=ci".toList "from" "ci".toList := ⟨by decide, by decide⟩
  apply Rearranged.trans (.swap _ (htitle.apart hline (by decide)))
  apply Rearranged.trans (.insert _ (.inl rfl))
  apply Rearranged.cons
  apply Rearranged.cons
  apply Rearranged.cons
  exact Rearranged.insert _ (.inr ⟨"from", _, hfrom, by decide⟩)

theorem ofLine_reads_grammar_crowded :
    ∃ a : Annotation, sparse.Gives a ∧ a.line = 3 ∧ a.title = some "a,b" ∧ a.endLine = none ∧
      a.message = "50%::\nb" ∧
      ofLine "::error ,line=2,title=a%2Cb,from=ci,file=x.rs,col=+07,line=3::50%25::%0Ab" =
        .ok a := by
  have hread : ofLine "::error title=a%2Cb,line=2,file=x.rs,col=+07,line=3::50%25::%0Ab\r\n" =
      .ok { level := .error, file := "x.rs", line := 3, column := 7, title := some "a,b"
            message := "50%::\nb" } := by
    decide +kernel
  obtain ⟨-, hgives, hrearranged⟩ := ofLine_reads_grammar
    "::error title=a%2Cb,line=2,file=x.rs,col=+07,line=3::50%25::%0Ab\r\n"
  have hcrowded := hrearranged sparse crowded _ isLine_sparse isLine_crowded rfl rfl
    rearranged_sparse
  rw [hread] at hcrowded
  exact ⟨_, hgives _ sparse hread isLine_sparse, rfl, rfl, rfl, rfl,
    toOption_eq_some_iff.1 hcrowded⟩

/-- Two pieces with different keys, neither of which has a number. -/
def numberless : Parts where
  name := "error".toList
  pieces := ["file=a".toList, "line=x".toList, "col=y".toList]
  message := "m".toList

/-- A piece without a key. -/
def keyless : Parts where
  name := "error".toList
  pieces := ["file".toList]
  message := "m".toList

theorem isLine_of_isHead (head : List Char) (hfirst : ¬ mark <:+: head ++ [':'])
    (hhead : IsHead head l.name l.pieces) (hmessage : l.message = ['m']) :
    IsLine (mark ++ (head ++ mark ++ ['m'])) l where
  written := ⟨head, [], by rw [hmessage, List.append_nil], hfirst, hhead, by simp⟩
  unended c hc := by
    rw [hmessage] at hc
    obtain rfl : 'm' = c := Option.some.inj hc
    rfl

/-- A refusal is that of the first piece at fault, and so another one in another order. It may quote
the line, and idle pieces with it. -/
theorem refusal_follows_order :
    (∃ l : Parts, IsLine "::error file=a,line=x,col=y::m".toList numberless ∧
      IsLine "::error file=a,col=y,line=x::m".toList l ∧ l.name = numberless.name ∧
      l.message = numberless.message ∧ Rearranged numberless.pieces l.pieces ∧
      ofLine "::error file=a,line=x,col=y::m" = .error (.number "line" "x") ∧
      ofLine "::error file=a,col=y,line=x::m" = .error (.number "col" "y")) ∧
    ∃ l : Parts, IsLine "::error file::m".toList keyless ∧ IsLine "::error ,file::m".toList l ∧
      l.name = keyless.name ∧ l.message = keyless.message ∧ Rearranged keyless.pieces l.pieces ∧
      ofLine "::error file::m" = .error (.malformed "::error file::m") ∧
      ofLine "::error ,file::m" = .error (.malformed "::error ,file::m") := by
  have hline : HasKey "line=x".toList "line" "x".toList := ⟨by decide, by decide⟩
  have hcol : HasKey "col=y".toList "col" "y".toList := ⟨by decide, by decide⟩
  constructor
  · refine ⟨{ numberless with pieces := ["file=a".toList, "col=y".toList, "line=x".toList] },
      ?_, ?_, rfl, rfl, .cons _ (.swap _ (hline.apart hcol (by decide))), by decide +kernel,
      by decide +kernel⟩
    · exact isLine_of_isHead "error file=a,line=x,col=y".toList (by decide +kernel)
        ⟨by decide, .inr ⟨by decide +kernel, by decide, by decide +kernel⟩⟩ rfl
    · exact isLine_of_isHead "error file=a,col=y,line=x".toList (by decide +kernel)
        ⟨by decide, .inr ⟨by decide +kernel, by decide, by decide +kernel⟩⟩ rfl
  · refine ⟨{ keyless with pieces := [[], "file".toList] }, ?_, ?_, rfl, rfl, .insert _ (.inl rfl),
      by decide +kernel, by decide +kernel⟩
    · exact isLine_of_isHead "error file".toList (by decide +kernel)
        ⟨by decide, .inr ⟨by decide +kernel, by decide, by decide +kernel⟩⟩ rfl
    · exact isLine_of_isHead "error ,file".toList (by decide +kernel)
        ⟨by decide, .inr ⟨by decide +kernel, by decide, by decide +kernel⟩⟩ rfl

end Steward.Annotation
