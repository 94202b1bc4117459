import Steward.Output.CargoTest

/-!
# How the lines of test output are written

The lines that the reader of test output looks for, as they are written, and that it takes these and
no others.

* `section?_eq_some_iff`, `located?_eq_some_iff`, `opened?_eq_some_iff`: sections and panics.
* `closed?_eq_some_iff`: texts that close a message in quotes.
* `toNat_position`: the numbers of a place.
-/

namespace Steward.Output.CargoTest

open Text

/-! ## Written forms -/

/-- The line `---- name stdout ----` of the test `name`. -/
structure IsSection (line name : List Char) : Prop where
  written : line = "---- ".toList ++ name ++ " stdout ----".toList
  nonempty : name ≠ []
  unbroken : ∀ c ∈ name, isBlank c = false

/-- The line `thread 'thread' panicked at rest`. -/
structure IsPanic (line thread rest : List Char) : Prop where
  written : line = "thread '".toList ++ thread ++ "' panicked at ".toList ++ rest
  nonempty : thread ≠ []
  unquoted : '\'' ∉ thread

/-- The text `file:line:column`. -/
structure IsPlace (text file line column : List Char) : Prop where
  written : text = file ++ ':' :: line ++ ':' :: column
  named : file ≠ []
  unbroken : ∀ c ∈ file, isBlank c = false ∧ c ≠ '\''
  lines : line ≠ [] ∧ ∀ c ∈ line, isDecimal c = true
  columns : column ≠ [] ∧ ∀ c ∈ column, isDecimal c = true

/-- The line `thread 'thread' panicked at file:line:column:`. -/
def IsLocated (text thread file line column : List Char) : Prop :=
  ∃ place, IsPlace place file line column ∧ IsPanic text thread (place ++ [':'])

/-- The line `thread 'thread' panicked at 'rest`. -/
def IsOpened (text thread rest : List Char) : Prop := IsPanic text thread ('\'' :: rest)

/-- The text `message', file:line:column`. -/
def IsClosed (text message file line column : List Char) : Prop :=
  ∃ place, IsPlace place file line column ∧ text = message ++ "', ".toList ++ place

/-! ## Lines -/

variable {text line thread rest name message file column : List Char} {place : Place}

theorem section?_eq_some_iff : section? line = some name ↔ IsSection line name := by
  constructor
  · intro h
    obtain ⟨s, hs, hrest⟩ := Option.bind_eq_some_iff.1 h
    obtain ⟨name', hname, htest⟩ := Option.bind_eq_some_iff.1 hrest
    obtain ⟨hplain, heq⟩ := Option.ite_none_left_eq_some.1 htest
    obtain rfl := Option.some.inj heq
    obtain ⟨hne, hunbroken⟩ : name' ≠ [] ∧ ∀ c ∈ name', isBlank c = false := by
      simpa using hplain
    refine ⟨?_, hne, hunbroken⟩
    rw [after?_eq_some_iff.1 hs, before?_eq_some_iff.1 hname, List.append_assoc]
  · rintro ⟨rfl, hne, hunbroken⟩
    have hs : after? "---- ".toList ("---- ".toList ++ name ++ " stdout ----".toList) =
        some (name ++ " stdout ----".toList) := by
      rw [List.append_assoc]
      exact after?_append _ _
    rw [section?, hs, Option.bind_eq_bind, Option.bind_some, before?_eq_some_iff.2 rfl]
    simpa [hne] using hunbroken

theorem thread?_eq_some_iff : thread? line = some (thread, rest) ↔ IsPanic line thread rest := by
  constructor
  · intro h
    obtain ⟨s, hs, hrest⟩ := Option.bind_eq_some_iff.1 h
    obtain ⟨⟨thread', s'⟩, hcut, hrest⟩ := Option.bind_eq_some_iff.1 hrest
    obtain ⟨s'', hpanicked, htest⟩ := Option.bind_eq_some_iff.1 hrest
    obtain ⟨hne, heq⟩ := Option.ite_none_left_eq_some.1 htest
    obtain ⟨rfl, rfl⟩ := Prod.mk.inj (Option.some.inj heq)
    obtain ⟨rfl, hquote⟩ := cut?_singleton_eq_some_iff.1 hcut
    refine ⟨?_, by simpa using hne, hquote⟩
    rw [after?_eq_some_iff.1 hs, after?_eq_some_iff.1 hpanicked]
    simp
  · rintro ⟨rfl, hne, hquote⟩
    have hs : after? "thread '".toList ("thread '".toList ++ thread ++ "' panicked at ".toList ++
        rest) = some (thread ++ '\'' :: (" panicked at ".toList ++ rest)) := by
      rw [after?_eq_some_iff]
      simp
    have hpanicked : after? " panicked at ".toList (" panicked at ".toList ++ rest) = some rest :=
      after?_append _ _
    simp only [thread?, hs, cut?_singleton_eq_some_iff.2 ⟨rfl, hquote⟩, hpanicked,
      Option.bind_eq_bind, Option.bind_some]
    simp [hne]

theorem isFile_iff : isFile file = true ↔ ∀ c ∈ file, isBlank c = false ∧ c ≠ '\'' := by
  simp [isFile, List.all_eq_true]

theorem cutPlace?_isPlace (h : IsPlace text file line column) :
    cutPlace? text = some (file, line, column) :=
  cutPlace?_eq_some_iff.2
    ⟨h.written, h.named, h.lines.1, h.columns.1, h.lines.2, h.columns.2⟩

theorem isPlace_of_cutPlace? (h : cutPlace? text = some (file, line, column))
    (hf : isFile file = true) : IsPlace text file line column := by
  obtain ⟨hwritten, hne, hl, hc, hline, hcolumn⟩ := cutPlace?_eq_some_iff.1 h
  exact ⟨hwritten, hne, isFile_iff.1 hf, ⟨hl, hline⟩, hc, hcolumn⟩

theorem located?_eq_some_iff : located? text = some (thread, place) ↔
    ∃ file line column, IsLocated text thread file line column ∧
      place = .of file line column := by
  constructor
  · intro h
    obtain ⟨⟨thread', s⟩, hthread, hrest⟩ := Option.bind_eq_some_iff.1 h
    obtain ⟨s', hcolon, hrest⟩ := Option.bind_eq_some_iff.1 hrest
    obtain ⟨⟨file, line, column⟩, hplace, htest⟩ := Option.bind_eq_some_iff.1 hrest
    obtain ⟨hfile, heq⟩ := Option.ite_none_right_eq_some.1 htest
    obtain ⟨rfl, rfl⟩ := Prod.mk.inj (Option.some.inj heq)
    obtain rfl := before?_eq_some_iff.1 hcolon
    exact ⟨file, line, column,
      ⟨s', isPlace_of_cutPlace? hplace hfile, thread?_eq_some_iff.1 hthread⟩, rfl⟩
  · rintro ⟨file, line, column, ⟨s, hplace, hthread⟩, rfl⟩
    have hcolon : before? [':'] (s ++ [':']) = some s := before?_eq_some_iff.2 rfl
    rw [located?, thread?_eq_some_iff.2 hthread]
    simp [hcolon, cutPlace?_isPlace hplace, isFile_iff.2 hplace.unbroken]

theorem opened?_eq_some_iff : opened? line = some (thread, rest) ↔ IsOpened line thread rest := by
  constructor
  · intro h
    obtain ⟨⟨thread', s⟩, hthread, hrest⟩ := Option.bind_eq_some_iff.1 h
    obtain ⟨s', hquote, heq⟩ := Option.bind_eq_some_iff.1 hrest
    obtain ⟨rfl, rfl⟩ := Prod.mk.inj (Option.some.inj heq)
    obtain rfl := after?_eq_some_iff.1 hquote
    exact thread?_eq_some_iff.1 hthread
  · intro h
    rw [opened?, thread?_eq_some_iff.2 h]
    rfl

/-! ## Messages in quotes -/

theorem closed?_eq_some_iff : closed? text = some (message, place) ↔
    ∃ file line column, IsClosed text message file line column ∧
      place = .of file line column := by
  constructor
  · intro h
    obtain ⟨⟨s, line, column⟩, hcut, hrest⟩ := Option.bind_eq_some_iff.1 h
    obtain ⟨quoted, hquote, htest⟩ := Option.bind_eq_some_iff.1 hrest
    obtain ⟨hfile, heq⟩ := Option.ite_none_right_eq_some.1 htest
    obtain ⟨rfl, rfl⟩ := Prod.mk.inj (Option.some.inj heq)
    have hsplit : s.reverse = s.reverse.takeWhile (· != ' ') ++ s.reverse.dropWhile (· != ' ') :=
      List.takeWhile_append_dropWhile.symm
    rw [after?_eq_some_iff.1 hquote] at hsplit
    generalize s.reverse.takeWhile (· != ' ') = last at hfile hsplit ⊢
    obtain ⟨hplain, hne⟩ : isFile last.reverse = true ∧ last.reverse ≠ [] := by
      simpa using hfile
    obtain rfl : s = quoted.reverse ++ "', ".toList ++ last.reverse := by
      simpa using congrArg List.reverse hsplit
    obtain ⟨rfl, -, hl, hc, hline, hcolumn⟩ := cutPlace?_eq_some_iff.1 hcut
    exact ⟨last.reverse, line, column,
      ⟨_, ⟨rfl, hne, isFile_iff.1 hplain, ⟨hl, hline⟩, hc, hcolumn⟩, by simp⟩, rfl⟩
  · rintro ⟨file, line, column, ⟨s, hplace, rfl⟩, rfl⟩
    obtain ⟨rfl, hne, hunbroken, ⟨hl, hline⟩, hc, hcolumn⟩ := hplace
    have hcut : cutPlace? (message ++ "', ".toList ++ (file ++ ':' :: line ++ ':' :: column)) =
        some (message ++ "', ".toList ++ file, line, column) :=
      cutPlace?_eq_some_iff.2 ⟨by simp, by simp, hl, hc, hline, hcolumn⟩
    have hlast : ∀ c ∈ file.reverse, (c != ' ') = true := by
      intro c hc
      refine bne_iff_ne.2 ?_
      rintro rfl
      exact absurd (hunbroken ' ' (List.mem_reverse.1 hc)).1 (by decide)
    have hreverse : (message ++ "', ".toList ++ file).reverse =
        file.reverse ++ [' ', ',', '\''] ++ message.reverse := by simp
    have htake : (message ++ "', ".toList ++ file).reverse.takeWhile (· != ' ') =
        file.reverse := by
      rw [hreverse, List.append_assoc, List.takeWhile_append_of_pos hlast]
      simp
    have hdrop : (message ++ "', ".toList ++ file).reverse.dropWhile (· != ' ') =
        [' ', ',', '\''] ++ message.reverse := by
      rw [hreverse, List.append_assoc, List.dropWhile_append_of_pos hlast]
      simp
    simp only [closed?, hcut, htake, hdrop, after?_append, Option.bind_eq_bind, Option.bind_some,
      List.reverse_reverse]
    simp [isFile_iff.2 hunbroken, hne]

/-! ## Numbers -/

/-- The number that ASCII digits denote, where it has 32 bits, and else 1. -/
def number (digits : List Char) : Nat :=
  if digits.all Char.isDigit ∧ Nat.ofDigitChars 10 digits 0 < Word.count32 then
    Nat.ofDigitChars 10 digits 0
  else 1

theorem toNat_position {digits : List Char} (h : digits ≠ []) :
    (position digits).toNat = number digits := by
  rw [position, number]
  by_cases hd : digits.all Char.isDigit = true
  · have hnumeral : ofNumeral? digits = some (Nat.ofDigitChars 10 digits 0) := by
      simp [ofNumeral?, h, hd]
    rw [hnumeral, Option.filter_some]
    by_cases hn : Nat.ofDigitChars 10 digits 0 < Word.count32
    · rw [if_pos (decide_eq_true hn), if_pos ⟨hd, hn⟩]
      exact UInt32.toNat_ofNat_of_lt hn
    · rw [if_neg fun h => hn (of_decide_eq_true h), if_neg fun h => hn h.2]
      rfl
  · have hnumeral : ofNumeral? digits = none := by
      simp [ofNumeral?, hd]
    rw [hnumeral, if_neg fun h => hd h.1]
    rfl

end Steward.Output.CargoTest
