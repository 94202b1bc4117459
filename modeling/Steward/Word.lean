/-!
# Machine words

How many values words of 32 and of 64 bits have. Signed words have half of them on either side of
zero. An operation whose value is none of them overflows: checks for overflow panic there, and
without them the value wraps.
-/

namespace Steward.Word

/-- The number of words of 32 bits. -/
abbrev count32 : Nat := 4294967296

/-- The number of words of 64 bits. -/
abbrev count64 : Nat := 18446744073709551616

/-- The bound of signed words of 32 bits. -/
abbrev bound32 : Int := 2147483648

/-- The bound of signed words of 64 bits. -/
abbrev bound64 : Int := 9223372036854775808

/-- The value of an operation on signed words of 64 bits, unless it overflows. -/
def signed? (n : Int) : Option Int := if -bound64 ≤ n ∧ n < bound64 then some n else none

/-- The sum of two words of 32 bits, unless the addition overflows. -/
def add? (a b : UInt32) : Option UInt32 :=
  if a.toNat + b.toNat < count32 then some (a + b) else none

/-- The sum of words, added up from the first on, unless an addition overflows. -/
def sum? (ns : List UInt32) : Option UInt32 := ns.foldlM add? 0

theorem signed?_of_fits {n : Int} (h : -bound64 ≤ n) (hlt : n < bound64) : signed? n = some n :=
  if_pos ⟨h, hlt⟩

theorem signed?_of_ge {n : Int} (h : bound64 ≤ n) : signed? n = none :=
  if_neg fun hfits => Int.not_le.2 hfits.2 h

end Steward.Word
