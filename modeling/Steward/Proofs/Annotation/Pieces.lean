import Steward.Proofs.Annotation.Escape

/-!
# Pieces of an annotation line

The pieces between the commas are read one after the other, and a later one takes the place of an
earlier one with its key. So what is read of them is, for each key, what the last piece with it
gives, and the first piece that cannot be read ends it all.

* `HasKey`, `IsNumber`, `IsText`, `Sound`: what stands in a piece.
* `put_eq_ok_iff`, `read_eq_ok_iff`: what one piece adds, and what all of them give.
* `Given`, `given_iff`: what the last piece with a key gives.
* `Rearranged.alike`: orders of the pieces that are read alike.
-/

namespace Steward.Annotation

open Text

/-! ## Pieces -/

/-- The piece is a key, an equals sign and a value. -/
def HasKey (piece : List Char) (key : String) (value : List Char) : Prop :=
  piece = key.toList ++ '=' :: value ∧ '=' ∉ key.toList

/-- The value denotes a number: digits, and maybe a plus sign before them. -/
def IsNumber (value : List Char) (n : UInt32) : Prop :=
  ∃ digits, (value = digits ∨ value = '+' :: digits) ∧ digits ≠ [] ∧
    digits.all Char.isDigit = true ∧ n.toNat = Nat.ofDigitChars 10 digits 0

/-- The value is the written form of a text. -/
def IsText (value : List Char) (text : String) : Prop := Means value text.toList

/-- The keys whose values are numbers. -/
def numberKeys : List String := ["line", "col", "endLine", "endColumn"]

/-- An empty piece, or one with an equals sign, whose value is a number where its key asks for
one. -/
structure Sound (piece : List Char) : Prop where
  assigned : piece ≠ [] → '=' ∈ piece
  number : ∀ key ∈ numberKeys, ∀ value, HasKey piece key value → ∃ n, IsNumber value n

/-- The number that a value denotes. -/
def number? (value : List Char) : Option UInt32 :=
  (ofUnsigned? Word.count32 value).map UInt32.ofNat

/-- The text of a value. -/
def text? (value : List Char) : Option String := some (readText value)

/-- The value of a piece with a key. -/
def valueOf? (key : String) (piece : List Char) : Option (List Char) :=
  (cut? ['='] piece).bind fun (name, value) => if String.ofList name = key then some value else none

/-- What the last piece with a key gives. -/
def given? {α : Type} (read? : List Char → Option α) (key : String) :
    (pieces : List (List Char)) → Option α
  | [] => none
  | piece :: rest => (given? read? key rest).or ((valueOf? key piece).bind read?)

/-- The properties after some pieces. -/
def Properties.after (p : Properties) (pieces : List (List Char)) : Properties :=
  { file := (given? text? "file" pieces).or p.file
    line := (given? number? "line" pieces).or p.line
    column := (given? number? "col" pieces).or p.column
    endLine := (given? number? "endLine" pieces).or p.endLine
    endColumn := (given? number? "endColumn" pieces).or p.endColumn
    title := (given? text? "title" pieces).or p.title }

variable {piece value : List Char} {pieces : List (List Char)} {key : String} {n : UInt32}
  {p q : Properties}

theorem hasKey_iff : HasKey piece key value ↔ cut? ['='] piece = some (key.toList, value) :=
  cut?_singleton_eq_some_iff.symm

theorem HasKey.valueOf?_eq (h : HasKey piece key value) (k : String) :
    valueOf? k piece = if key = k then some value else none := by
  simp only [valueOf?, hasKey_iff.1 h, Option.bind_some, String.ofList_toList]

theorem valueOf?_eq_some_iff : valueOf? key piece = some value ↔ HasKey piece key value := by
  constructor
  · intro h
    obtain ⟨⟨name, value'⟩, hcut, h⟩ := Option.bind_eq_some_iff.1 h
    obtain ⟨rfl, hvalue⟩ := Option.ite_none_right_eq_some.1 h
    obtain rfl := Option.some.inj hvalue
    rw [hasKey_iff, String.toList_ofList]
    exact hcut
  · intro h
    rw [h.valueOf?_eq, if_pos rfl]

theorem isNumber_iff : IsNumber value n ↔ number? value = some n := by
  unfold IsNumber number?
  simp only [Option.map_eq_some_iff, ofUnsigned?_eq_some_iff]
  constructor
  · intro h
    obtain ⟨digits, hvalue, hne, hdigits, hn⟩ := h
    have hnumeral : ofNumeral? digits = some n.toNat := by simp [ofNumeral?, hne, hdigits, hn]
    exact ⟨n.toNat, ⟨digits, hvalue, hnumeral, n.toNat_lt⟩, UInt32.ofNat_toNat⟩
  · intro h
    obtain ⟨m, ⟨digits, hvalue, hnumeral, hm⟩, rfl⟩ := h
    unfold ofNumeral? at hnumeral
    obtain ⟨hdigits, hnumeral⟩ := Option.ite_none_right_eq_some.1 hnumeral
    obtain rfl := Option.some.inj hnumeral
    simp only [Bool.and_eq_true, Bool.not_eq_true', List.isEmpty_eq_false_iff] at hdigits
    exact ⟨digits, hvalue, hdigits.1, hdigits.2, UInt32.toNat_ofNat_of_lt hm⟩

theorem isText_iff {t : String} : IsText value t ↔ text? value = some t := by
  rw [IsText, means_iff, text?, readText, Option.some_inj, ← String.toList_inj,
    String.toList_ofList]

/-- A number is read or refused. -/
theorem map_readNumber_eq_ok_iff (property : String) (f : Option UInt32 → Properties)
    (before : Option UInt32) :
    ((readNumber property value).map fun n => f (some n)) = .ok q ↔
      (∃ n, number? value = some n) ∧ q = f ((number? value).or before) := by
  unfold readNumber number?
  cases ofUnsigned? Word.count32 value with
  | none => simp [Except.map]
  | some n => simp [Except.map, eq_comm]

theorem put_eq_ok_iff (h : HasKey piece key value) :
    p.put key value = .ok q ↔
      (key ∈ numberKeys → ∃ n, number? value = some n) ∧ q = p.after [piece] := by
  have hvalue := h.valueOf?_eq
  unfold Properties.put
  split <;> simp only [Properties.after, given?, hvalue, Option.none_or, String.reduceEq, if_true,
    if_false, Option.bind_none, Option.bind_some]
  · simp [numberKeys, text?, eq_comm]
  · simpa [numberKeys] using map_readNumber_eq_ok_iff "line" ({ p with line := · }) p.line
  · simpa [numberKeys] using map_readNumber_eq_ok_iff "col" ({ p with column := · }) p.column
  · simpa [numberKeys] using map_readNumber_eq_ok_iff "endLine" ({ p with endLine := · }) p.endLine
  · simpa [numberKeys] using
      map_readNumber_eq_ok_iff "endColumn" ({ p with endColumn := · }) p.endColumn
  · simp [numberKeys, text?, eq_comm]
  · next hfile hline hcolumn hendLine hendColumn htitle =>
    have hnumber : key ∉ numberKeys := by
      simp only [numberKeys, List.mem_cons, List.not_mem_nil, or_false, not_or]
      exact ⟨hline, hcolumn, hendLine, hendColumn⟩
    simp only [hnumber, if_neg hfile, if_neg hline, if_neg hcolumn, if_neg hendLine,
      if_neg hendColumn, if_neg htitle, Option.bind_none, Option.none_or, Except.ok.injEq,
      false_imp_iff, true_and]
    exact eq_comm

/-! ## Reading pieces -/

theorem after_nil : p.after [] = p := by
  simp [Properties.after, given?]

theorem after_cons : p.after (piece :: pieces) = (p.after [piece]).after pieces := by
  simp [Properties.after, given?, Option.or_assoc]

theorem valueOf?_nil (key : String) : valueOf? key [] = none := rfl

theorem after_cons_nil : p.after ([] :: pieces) = p.after pieces := by
  simp [Properties.after, given?, valueOf?_nil]

theorem sound_nil : Sound [] where
  assigned h := absurd rfl h
  number key _ value h := by
    have hnil := h.1
    simp at hnil

theorem exists_hasKey (h : '=' ∈ piece) : ∃ key value, HasKey piece key value := by
  obtain ⟨name, value, rfl, hname⟩ := List.eq_append_cons_of_mem h
  refine ⟨String.ofList name, value, ?_, ?_⟩
  · rw [String.toList_ofList]
  · rwa [String.toList_ofList]

theorem HasKey.unique {k : String} {v : List Char} (h : HasKey piece key value)
    (h' : HasKey piece k v) : key = k ∧ value = v := by
  have heq := (hasKey_iff.1 h).symm.trans (hasKey_iff.1 h')
  simp only [Option.some.injEq, Prod.mk.injEq, String.toList_inj] at heq
  exact heq

theorem HasKey.sound_iff (h : HasKey piece key value) :
    Sound piece ↔ (key ∈ numberKeys → ∃ n, number? value = some n) := by
  constructor
  · intro hsound hkey
    obtain ⟨n, hn⟩ := hsound.number key hkey value h
    exact ⟨n, isNumber_iff.1 hn⟩
  · intro hnumber
    constructor
    · intro _
      rw [h.1]
      simp
    · intro k hk v hv
      obtain ⟨rfl, rfl⟩ := h.unique hv
      obtain ⟨n, hn⟩ := hnumber hk
      exact ⟨n, isNumber_iff.2 hn⟩

/-- Pieces are read in case they are all sound. -/
theorem read_eq_ok_iff {malformed : Fault} :
    Properties.read malformed p (pieces.filter (!·.isEmpty)) = .ok q ↔
      (∀ piece ∈ pieces, Sound piece) ∧ q = p.after pieces := by
  -- Each piece starts from the properties that the ones before it left.
  induction pieces generalizing p with
  | nil => simp [Properties.read, after_nil, eq_comm]
  | cons piece pieces ih =>
    rw [List.forall_mem_cons]
    by_cases hpiece : piece = []
    · subst hpiece
      simp [ih, after_cons_nil, sound_nil]
    · rw [List.filter_cons_of_pos (by simpa using hpiece), Properties.read]
      by_cases heq : '=' ∈ piece
      · obtain ⟨key, value, hkey⟩ := exists_hasKey heq
        rw [hasKey_iff.1 hkey, hkey.sound_iff, after_cons]
        simp only [String.ofList_toList]
        cases hput : p.put key value with
        | ok p' =>
          obtain ⟨hnumber, rfl⟩ := (put_eq_ok_iff hkey).1 hput
          rw [and_iff_right hnumber]
          exact ih
        | error e =>
          have hno : ¬ (key ∈ numberKeys → ∃ n, number? value = some n) := by
            intro hnumber
            rw [(put_eq_ok_iff hkey).2 ⟨hnumber, rfl⟩] at hput
            cases hput
          simp only [hno, false_and, iff_false]
          intro h
          cases h
      · have hcut : cut? ['='] piece = none := by
          rw [Option.eq_none_iff_forall_not_mem]
          intro r hr
          apply heq
          rw [(cut?_singleton_eq_some_iff.1 hr).1]
          simp
        have hno : ¬ Sound piece := fun h => heq (h.assigned hpiece)
        simp [hcut, hno]

/-! ## The last piece with a key -/

/-- The value of the last piece with a key. -/
def IsLast (pieces : List (List Char)) (key : String) (value : List Char) : Prop :=
  ∃ before piece after, pieces = before ++ piece :: after ∧ HasKey piece key value ∧
    ∀ p ∈ after, ∀ v, ¬ HasKey p key v

/-- What the last piece with a key gives, by way of its value; nothing without such a piece. -/
def Given {α : Type} (reads : List Char → α → Prop) (key : String) (pieces : List (List Char)) :
    Option α → Prop
  | some a => ∃ value, IsLast pieces key value ∧ reads value a
  | none => ∀ piece ∈ pieces, ∀ value, ¬ HasKey piece key value

section
variable {α : Type} {reads : List Char → α → Prop} {read? : List Char → Option α}

theorem valueOf?_eq_none_iff : valueOf? key piece = none ↔ ∀ value, ¬ HasKey piece key value := by
  rw [Option.eq_none_iff_forall_ne_some]
  exact forall_congr' fun value => not_congr valueOf?_eq_some_iff

theorem given?_append (read? : List Char → Option α) (key : String)
    (before after : List (List Char)) :
    given? read? key (before ++ after) =
      (given? read? key after).or (given? read? key before) := by
  induction before with
  | nil => simp [given?]
  | cons piece before ih => rw [List.cons_append, given?, given?, ih, Option.or_assoc]

theorem given?_eq_none (read? : List Char → Option α)
    (h : ∀ piece ∈ pieces, ∀ value, ¬ HasKey piece key value) : given? read? key pieces = none := by
  induction pieces with
  | nil => rfl
  | cons piece pieces ih =>
    obtain ⟨hpiece, hpieces⟩ := List.forall_mem_cons.1 h
    rw [given?, ih hpieces, valueOf?_eq_none_iff.2 hpiece]
    rfl

theorem IsLast.cons (h : IsLast pieces key value) (piece : List Char) :
    IsLast (piece :: pieces) key value := by
  obtain ⟨before, p, after, rfl, hp, hafter⟩ := h
  exact ⟨piece :: before, p, after, rfl, hp, hafter⟩

/-- Where every value with the key can be read, the pieces give what was read last. -/
theorem given_iff (hread : ∀ value a, reads value a ↔ read? value = some a)
    (hall : ∀ piece ∈ pieces, ∀ value, HasKey piece key value → ∃ a, reads value a)
    {o : Option α} : Given reads key pieces o ↔ given? read? key pieces = o := by
  constructor
  · intro h
    cases o with
    | none => exact given?_eq_none read? h
    | some a =>
      obtain ⟨value, ⟨before, piece, after, rfl, hpiece, hafter⟩, ha⟩ := h
      rw [given?_append, given?, given?_eq_none read? hafter, valueOf?_eq_some_iff.2 hpiece,
        Option.bind_some, (hread _ _).1 ha]
      rfl
  · intro h
    subst h
    -- The first piece counts only where none behind it has the key.
    induction pieces with
    | nil => simp [given?, Given]
    | cons piece pieces ih =>
      obtain ⟨hpiece, hpieces⟩ := List.forall_mem_cons.1 hall
      have hrest := ih hpieces
      rw [given?]
      cases hgiven : given? read? key pieces with
      | some a =>
        rw [hgiven] at hrest
        obtain ⟨value, hlast, ha⟩ := hrest
        exact ⟨value, hlast.cons piece, ha⟩
      | none =>
        rw [hgiven] at hrest
        cases hvalue : valueOf? key piece with
        | none => exact List.forall_mem_cons.2 ⟨valueOf?_eq_none_iff.1 hvalue, hrest⟩
        | some value =>
          have hkey := valueOf?_eq_some_iff.1 hvalue
          obtain ⟨a, ha⟩ := hpiece value hkey
          rw [Option.none_or, Option.bind_some, (hread _ _).1 ha]
          exact ⟨value, ⟨[], piece, pieces, rfl, hkey, hrest⟩, ha⟩

theorem exists_given {o : Option α}
    (h : Given reads key pieces o) (hkey : ∃ piece ∈ pieces, ∃ value, HasKey piece key value) :
    ∃ a, o = some a := by
  obtain ⟨piece, hpiece, value, hvalue⟩ := hkey
  cases o with
  | none => exact absurd hvalue (h piece hpiece value)
  | some a => exact ⟨a, rfl⟩

theorem exists_hasKey_of_given {b : α}
    (h : Given reads key pieces (some b)) : ∃ piece ∈ pieces, ∃ value, HasKey piece key value := by
  obtain ⟨value, ⟨before, piece, after, rfl, hpiece, -⟩, -⟩ := h
  exact ⟨piece, by simp, value, hpiece⟩

end

theorem given_number_iff (hsound : ∀ piece ∈ pieces, Sound piece) (hkey : key ∈ numberKeys)
    {o : Option UInt32} : Given IsNumber key pieces o ↔ given? number? key pieces = o := by
  apply given_iff
  · intro value n
    exact isNumber_iff
  · intro piece hpiece value
    exact (hsound piece hpiece).number key hkey value

theorem given_text_iff {o : Option String} :
    Given IsText key pieces o ↔ given? text? key pieces = o := by
  apply given_iff
  · intro value t
    exact isText_iff
  · intro piece _ value _
    exact ⟨readText value, isText_iff.2 rfl⟩

/-! ## Rearranged pieces -/

/-- The keys that are known. -/
def keys : List String := "file" :: "title" :: numberKeys

/-- An empty piece, or one whose key is not known. -/
def Idle (piece : List Char) : Prop :=
  piece = [] ∨ ∃ key value, HasKey piece key value ∧ key ∉ keys

/-- The pieces have no key in common. -/
def Apart (p q : List Char) : Prop := ∀ key v w, HasKey p key v → ¬ HasKey q key w

theorem HasKey.apart {other w : List Char} {k : String} (h : HasKey piece key value)
    (h' : HasKey other k w) (hne : key ≠ k) : Apart piece other := by
  intro key' v w hv hw
  apply hne
  rw [(h.unique hv).1, (h'.unique hw).1]

/-- The pieces were brought into another order, where those of one key stay in theirs, and idle
pieces were put in or left out. -/
inductive Rearranged : List (List Char) → List (List Char) → Prop where
  | refl (ps : List (List Char)) : Rearranged ps ps
  | symm {ps qs : List (List Char)} : Rearranged ps qs → Rearranged qs ps
  | trans {ps qs rs : List (List Char)} : Rearranged ps qs → Rearranged qs rs → Rearranged ps rs
  | cons {ps qs : List (List Char)} (p : List Char) : Rearranged ps qs →
      Rearranged (p :: ps) (p :: qs)
  | swap {p q : List Char} (ps : List (List Char)) : Apart p q →
      Rearranged (p :: q :: ps) (q :: p :: ps)
  | insert {p : List Char} (ps : List (List Char)) : Idle p → Rearranged ps (p :: ps)

/-- Nothing that is read tells the pieces apart. -/
structure Alike (ps qs : List (List Char)) : Prop where
  sound : (∀ p ∈ ps, Sound p) ↔ ∀ q ∈ qs, Sound q
  given : ∀ {α : Type} (read? : List Char → Option α), ∀ key ∈ keys,
    given? read? key ps = given? read? key qs

theorem Idle.sound (h : Idle piece) : Sound piece := by
  rcases h with rfl | ⟨key, value, hkey, hunknown⟩
  · exact sound_nil
  · refine hkey.sound_iff.2 fun hnumber => ?_
    exact absurd (List.mem_cons_of_mem _ (List.mem_cons_of_mem _ hnumber)) hunknown

theorem Idle.valueOf?_eq_none (h : Idle piece) (hkey : key ∈ keys) : valueOf? key piece = none := by
  rcases h with rfl | ⟨k, value, hk, hunknown⟩
  · rfl
  · rw [hk.valueOf?_eq, if_neg]
    rintro rfl
    exact hunknown hkey

theorem Rearranged.alike {ps qs : List (List Char)} (h : Rearranged ps qs) : Alike ps qs := by
  induction h with
  | refl ps => exact ⟨Iff.rfl, fun _ _ _ => rfl⟩
  | symm _ ih => exact ⟨ih.sound.symm, fun read? key hkey => (ih.given read? key hkey).symm⟩
  | trans _ _ ih ih' =>
    exact ⟨ih.sound.trans ih'.sound,
      fun read? key hkey => (ih.given read? key hkey).trans (ih'.given read? key hkey)⟩
  | cons p _ ih =>
    constructor
    · rw [List.forall_mem_cons, List.forall_mem_cons, ih.sound]
    · intro α read? key hkey
      rw [given?, given?, ih.given read? key hkey]
  | @swap p q ps hapart =>
    constructor
    · simp only [List.forall_mem_cons]
      exact and_left_comm
    · intro α read? key hkey
      simp only [given?, Option.or_assoc]
      -- At most one of the two has the key, so it does not matter which comes first.
      congr 1
      cases hp : valueOf? key p with
      | none => simp
      | some v =>
        have hq : valueOf? key q = none :=
          valueOf?_eq_none_iff.2 fun w => hapart key v w (valueOf?_eq_some_iff.1 hp)
        simp [hq]
  | insert ps hidle =>
    constructor
    · rw [List.forall_mem_cons, and_iff_right hidle.sound]
    · intro α read? key hkey
      rw [given?, hidle.valueOf?_eq_none hkey]
      simp

theorem Alike.after_eq {ps qs : List (List Char)} (h : Alike ps qs) (p : Properties) :
    p.after ps = p.after qs := by
  unfold Properties.after
  rw [h.given text? "file" (by decide), h.given number? "line" (by decide),
    h.given number? "col" (by decide), h.given number? "endLine" (by decide),
    h.given number? "endColumn" (by decide), h.given text? "title" (by decide)]

end Steward.Annotation
