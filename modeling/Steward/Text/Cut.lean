/-!
# Cutting a text at an offset

Offsets into a text count units: one or two for a character where texts are counted in UTF-16, one
to four in UTF-8. An offset inside a character cuts nowhere.

* `cutAt?_eq_some_iff`: a cut gives the text back, its first part as wide as the offset.
* `between?_eq_some_iff`: the text between two offsets stands between parts of these widths.
* `byteOffset?_eq_some_iff`: an offset in UTF-16 and the one in UTF-8 are of the same place.
-/

namespace Steward.Text

/-- The units of a text. -/
def width (units : Char → Nat) : List Char → Nat
  | [] => 0
  | c :: s => units c + width units s

/-- The units of a character in UTF-16. -/
def units16 (c : Char) : Nat := if c.toNat < 0x10000 then 1 else 2

/-- The units of a character in UTF-8. -/
def units8 (c : Char) : Nat := c.utf8Size

/-- The text before and after an offset. -/
def cutAt? (units : Char → Nat) : (offset : Nat) → List Char → Option (List Char × List Char)
  | 0, s => some ([], s)
  | _ + 1, [] => none
  | offset + 1, c :: s =>
    if units c ≤ offset + 1 then
      (cutAt? units (offset + 1 - units c) s).map fun (before, after) => (c :: before, after)
    else none

/-- The text between two offsets. -/
def between? (units : Char → Nat) (start finish : Nat) (s : List Char) : Option (List Char) := do
  if finish < start then none
  let (_, rest) ← cutAt? units start s
  let (inside, _) ← cutAt? units (finish - start) rest
  return inside

/-- How many bytes of a text stand before the offset in UTF-16, where `units` and `bytes` stand
before the rest of the text. -/
def byteOffsetFrom? (offset : Nat) : (units bytes : Nat) → List Char → Option Nat
  | units, bytes, [] => if units = offset then some bytes else none
  | units, bytes, c :: s =>
    if units = offset then some bytes
    else if offset < units then none
    else byteOffsetFrom? offset (units + units16 c) (bytes + units8 c) s

/-- The offset in UTF-8 of the place at an offset in UTF-16. -/
def byteOffset? (offset : Nat) (s : List Char) : Option Nat := byteOffsetFrom? offset 0 0 s

@[simp] theorem width_nil (units : Char → Nat) : width units [] = 0 := rfl

@[simp] theorem width_cons (units : Char → Nat) (c : Char) (s : List Char) :
    width units (c :: s) = units c + width units s := rfl

@[simp] theorem width_append (units : Char → Nat) (s t : List Char) :
    width units (s ++ t) = width units s + width units t := by
  induction s with
  | nil => simp
  | cons c s ih => simp [ih, Nat.add_assoc]

theorem units16_pos (c : Char) : 0 < units16 c := by unfold units16; split <;> decide

theorem units8_pos (c : Char) : 0 < units8 c := Char.utf8Size_pos c

theorem cutAt?_eq_some_iff {units : Char → Nat} (h : ∀ c, 0 < units c) {offset : Nat}
    {s before after : List Char} :
    cutAt? units offset s = some (before, after) ↔
      s = before ++ after ∧ width units before = offset := by
  induction s generalizing offset before with
  | nil =>
    cases offset with
    | zero =>
      simp only [cutAt?, Option.some.injEq, Prod.mk.injEq]
      constructor
      · rintro ⟨rfl, rfl⟩; simp
      · rintro ⟨hs, _⟩
        obtain ⟨rfl, rfl⟩ := List.append_eq_nil_iff.1 hs.symm
        simp
    | succ n =>
      simp only [cutAt?, reduceCtorEq, false_iff]
      rintro ⟨hs, hw⟩
      obtain ⟨rfl, rfl⟩ := List.append_eq_nil_iff.1 hs.symm
      simp at hw
  | cons c s ih =>
    cases offset with
    | zero =>
      simp only [cutAt?, Option.some.injEq, Prod.mk.injEq]
      constructor
      · rintro ⟨rfl, rfl⟩; simp
      · rintro ⟨hs, hw⟩
        cases before with
        | nil => simpa using hs
        | cons d before =>
          have := h d
          simp only [width_cons] at hw
          omega
    | succ n =>
      simp only [cutAt?]
      have hc := h c
      by_cases hle : units c ≤ n + 1
      · simp only [hle, if_true, Option.map_eq_some_iff, Prod.mk.injEq, Prod.exists]
        constructor
        · rintro ⟨b, a, hb, rfl, rfl⟩
          obtain ⟨rfl, hw⟩ := ih.1 hb
          simp only [List.cons_append, width_cons, true_and]
          omega
        · rintro ⟨hs, hw⟩
          cases before with
          | nil => simp at hw
          | cons d b =>
            simp only [List.cons_append, List.cons.injEq] at hs
            obtain ⟨rfl, rfl⟩ := hs
            simp only [width_cons] at hw
            exact ⟨b, after, ih.2 ⟨rfl, by omega⟩, rfl, rfl⟩
      · simp only [hle, if_false, reduceCtorEq, false_iff]
        rintro ⟨hs, hw⟩
        cases before with
        | nil => simp at hw
        | cons d b =>
          simp only [List.cons_append, List.cons.injEq] at hs
          obtain ⟨rfl, _⟩ := hs
          simp only [width_cons] at hw
          omega

theorem between?_eq_some_iff {units : Char → Nat} (h : ∀ c, 0 < units c) {start finish : Nat}
    {s mid : List Char} :
    between? units start finish s = some mid ↔ ∃ before after, s = before ++ mid ++ after ∧
      width units before = start ∧ width units (before ++ mid) = finish := by
  simp only [width_append]
  by_cases hlt : finish < start
  · simp only [between?, if_pos hlt]
    refine ⟨fun hcut => (nomatch hcut), fun hmid => ?_⟩
    obtain ⟨before, after, -, hbefore, hfinish⟩ := hmid
    omega
  · simp only [between?, if_neg hlt, Option.bind_eq_bind, Option.bind_eq_some_iff, Prod.exists,
      cutAt?_eq_some_iff h, Option.pure_def, Option.some.injEq]
    constructor
    · intro hcut
      obtain ⟨before, rest, ⟨rfl, hbefore⟩, inside, after, ⟨rfl, hinside⟩, rfl⟩ := hcut
      exact ⟨before, after, by simp, hbefore, by omega⟩
    · intro hmid
      obtain ⟨before, after, rfl, hbefore, hfinish⟩ := hmid
      exact ⟨before, mid ++ after, ⟨by simp, hbefore⟩, mid, after, ⟨rfl, by omega⟩, rfl⟩

theorem byteOffsetFrom?_eq_some_iff {offset units bytes k : Nat} {s : List Char} :
    byteOffsetFrom? offset units bytes s = some k ↔ ∃ before after, s = before ++ after ∧
      units + width units16 before = offset ∧ bytes + width units8 before = k := by
  induction s generalizing units bytes with
  | nil =>
    simp only [byteOffsetFrom?, Option.ite_none_right_eq_some, Option.some.injEq]
    refine ⟨fun h => ⟨[], [], rfl, h⟩, fun h => ?_⟩
    obtain ⟨before, after, hs, h⟩ := h
    obtain ⟨rfl, -⟩ := List.append_eq_nil_iff.1 hs.symm
    exact h
  | cons c s ih =>
    have hpos := units16_pos c
    simp only [byteOffsetFrom?]
    by_cases heq : units = offset
    · rw [if_pos heq, Option.some.injEq]
      refine ⟨fun h => ⟨[], c :: s, rfl, heq, h⟩, fun h => ?_⟩
      obtain ⟨before, after, hs, hunits, hbytes⟩ := h
      cases before with
      | nil => exact hbytes
      | cons d before =>
        obtain ⟨rfl, -⟩ := List.cons.inj hs
        simp only [width_cons] at hunits
        omega
    · rw [if_neg heq]
      by_cases hlt : offset < units
      · rw [if_pos hlt]
        refine ⟨fun h => (nomatch h), fun h => ?_⟩
        obtain ⟨before, after, -, hunits, -⟩ := h
        omega
      · rw [if_neg hlt, ih]
        constructor
        · intro h
          obtain ⟨before, after, rfl, hunits, hbytes⟩ := h
          exact ⟨c :: before, after, rfl, by simp only [width_cons]; omega,
            by simp only [width_cons]; omega⟩
        · intro h
          obtain ⟨before, after, hs, hunits, hbytes⟩ := h
          cases before with
          | nil => exact absurd hunits heq
          | cons d before =>
            obtain ⟨rfl, rfl⟩ := List.cons.inj hs
            simp only [width_cons] at hunits hbytes
            exact ⟨before, after, rfl, by omega, by omega⟩

theorem byteOffset?_eq_some_iff {offset k : Nat} {s : List Char} :
    byteOffset? offset s = some k ↔ ∃ before after, s = before ++ after ∧
      width units16 before = offset ∧ width units8 before = k := by
  simp only [byteOffset?, byteOffsetFrom?_eq_some_iff, Nat.zero_add]

end Steward.Text
