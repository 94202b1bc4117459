/-!
# Reading bytes as text

Bytes in UTF-8. Where bytes are no such text, every longest start of a character that breaks off,
and every byte that starts none, stands as one replacement character.

* `decode_ascii`: bytes of ASCII are the characters of the same numbers.
-/

namespace Steward.Text

/-- What stands for bytes that are no text. -/
def replacement : Char := '\uFFFD'

/-- The range of the second byte of a character, and how many bytes follow the first, if a byte
starts a character of several bytes. -/
def lead? (b : UInt8) : Option (UInt8 × UInt8 × Nat) :=
  if 0xC2 ≤ b ∧ b ≤ 0xDF then some (0x80, 0xBF, 1)
  else if b = 0xE0 then some (0xA0, 0xBF, 2)
  else if b = 0xED then some (0x80, 0x9F, 2)
  else if 0xE1 ≤ b ∧ b ≤ 0xEF then some (0x80, 0xBF, 2)
  else if b = 0xF0 then some (0x90, 0xBF, 3)
  else if 0xF1 ≤ b ∧ b ≤ 0xF3 then some (0x80, 0xBF, 3)
  else if b = 0xF4 then some (0x80, 0x8F, 3)
  else none

/-- The bits that the first byte of a character of several bytes holds. -/
def leadBits (b : UInt8) (more : Nat) : Nat := b.toNat % Nat.pow 2 (6 - more)

/-- The character of the bytes that follow a first byte, of which `more` are missing: the character,
and the bytes that it takes. -/
def follow (low high : UInt8) : (more bits : Nat) → List UInt8 → Char × Nat
  | 0, bits, _ => (Char.ofNat bits, 0)
  | _ + 1, _, [] => (replacement, 0)
  | more + 1, bits, b :: rest =>
    if low ≤ b ∧ b ≤ high then
      let (c, taken) := follow 0x80 0xBF more (bits * 64 + b.toNat % 64) rest
      (c, taken + 1)
    else (replacement, 0)

/-- The first character of bytes, given the first byte, and how many more bytes it takes. -/
def firstChar (b : UInt8) (rest : List UInt8) : Char × Nat :=
  if b < 0x80 then (Char.ofNat b.toNat, 0)
  else
    match lead? b with
    | some (low, high, more) => follow low high more (leadBits b more) rest
    | none => (replacement, 0)

/-- The characters of bytes, of which the first `skip` are left out. -/
def decodeFrom : (skip : Nat) → List UInt8 → List Char
  | _, [] => []
  | skip + 1, _ :: rest => decodeFrom skip rest
  | 0, b :: rest =>
    let (c, taken) := firstChar b rest
    c :: decodeFrom taken rest

/-- The text of bytes. -/
def decode (bytes : List UInt8) : List Char := decodeFrom 0 bytes

theorem decode_ascii {bytes : List UInt8} (h : ∀ b ∈ bytes, b < 0x80) :
    decode bytes = bytes.map fun b => Char.ofNat b.toNat := by
  unfold decode
  induction bytes with
  | nil => rfl
  | cons b rest ih =>
    have hb : b < 0x80 := h b (List.mem_cons_self ..)
    simp only [decodeFrom, firstChar, if_pos hb, List.map_cons]
    rw [ih fun c hc => h c (List.mem_cons_of_mem _ hc)]

/-- The text of bytes. -/
def decodeBytes (bytes : ByteArray) : String := String.ofList (decode bytes.toList)

end Steward.Text
