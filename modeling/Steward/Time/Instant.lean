import Steward.Text.Decimal
import Steward.Time.Civil

/-!
# Instants and spans

A point in time, in whole seconds from the start of 1970 and nanoseconds. The nanoseconds of a leap
second run on from 10^9 inside the second before it, the last of its minute. Instants are ordered by
second, then nanosecond.

A span is a length of time in nanoseconds. Its short written form is in the largest unit that leaves
a whole part: `60s`, `1.5s`, `50ms`, `0ns`.

* `Instant.le_total`, `Instant.le_trans`, `Instant.le_antisymm`: the order is linear.
-/

namespace Steward.Time

/-- A point in time. -/
structure Instant where
  second : Int
  nano : Nat
  valid : nano < 1000000000 ∨ nano < 2000000000 ∧ second % 60 = 59
deriving DecidableEq

namespace Instant

/-- The start of a second. -/
def ofSecond (s : Int) : Instant := ⟨s, 0, Or.inl (by decide)⟩

/-- The instant of a second and a number of nanoseconds that may exceed it. -/
def ofNanos (s : Int) (n : Int) : Instant :=
  ⟨s + n / 1000000000, (n % 1000000000).toNat, Or.inl (by omega)⟩

/-- The instant of a number of milliseconds from the start of 1970. -/
def ofMillis (ms : Int) : Instant := ofNanos (ms / 1000) (ms % 1000 * 1000000)

instance : Inhabited Instant := ⟨ofSecond 0⟩

/-- Order by second, then nanosecond. -/
protected def Le (a b : Instant) : Prop :=
  a.second < b.second ∨ a.second = b.second ∧ a.nano ≤ b.nano

/-- Strict order by second, then nanosecond. -/
protected def Lt (a b : Instant) : Prop :=
  a.second < b.second ∨ a.second = b.second ∧ a.nano < b.nano

instance : LE Instant := ⟨Instant.Le⟩
instance : LT Instant := ⟨Instant.Lt⟩

theorem le_def {a b : Instant} :
    a ≤ b ↔ a.second < b.second ∨ a.second = b.second ∧ a.nano ≤ b.nano := Iff.rfl

theorem lt_def {a b : Instant} :
    a < b ↔ a.second < b.second ∨ a.second = b.second ∧ a.nano < b.nano := Iff.rfl

instance (a b : Instant) : Decidable (a ≤ b) := inferInstanceAs (Decidable (_ ∨ _))
instance (a b : Instant) : Decidable (a < b) := inferInstanceAs (Decidable (_ ∨ _))

theorem le_refl (a : Instant) : a ≤ a := by rw [le_def]; omega

theorem le_trans {a b c : Instant} (h : a ≤ b) (k : b ≤ c) : a ≤ c := by
  rw [le_def] at *; omega

theorem le_total (a b : Instant) : a ≤ b ∨ b ≤ a := by simp only [le_def]; omega

theorem not_le {a b : Instant} : ¬a ≤ b ↔ b < a := by rw [le_def, lt_def]; omega

theorem not_lt {a b : Instant} : ¬a < b ↔ b ≤ a := by rw [le_def, lt_def]; omega

theorem le_antisymm {a b : Instant} (h : a ≤ b) (k : b ≤ a) : a = b := by
  rw [le_def] at *
  obtain ⟨s, n, _⟩ := a
  obtain ⟨s', n', _⟩ := b
  obtain ⟨rfl, rfl⟩ : s = s' ∧ n = n' := by simp only at h k; omega
  rfl

/-- The second of the day. -/
def secondOfDay (a : Instant) : Int := a.second % 86400

/-- Whether the instant lies inside a leap second. -/
def isLeap (a : Instant) : Bool := 1000000000 ≤ a.nano

/-- The nanoseconds from `b` to `a`. A leap second that has passed on the earlier instant's day
counts one second more. -/
def since (a b : Instant) : Int :=
  let leap : Int :=
    if b.secondOfDay < a.secondOfDay then (if b.isLeap then 1 else 0)
    else if a.secondOfDay < b.secondOfDay then (if a.isLeap then -1 else 0)
    else 0
  (a.second - b.second + leap) * 1000000000 + (a.nano - b.nano)

/-- The whole milliseconds from `b` to `a`, cut toward zero. -/
def millisSince (a b : Instant) : Int := (a.since b).tdiv 1000000

/-- The instant a number of nanoseconds later. Leaving a leap second ends it. -/
def addNanos (a : Instant) (n : Int) : Instant :=
  if h : a.isLeap = true then
    let sum := a.nano + n
    if hs : 1000000000 ≤ sum ∧ sum < 2000000000 then
      ⟨a.second, sum.toNat, by
        have hv := a.valid
        simp only [isLeap, decide_eq_true_eq] at h
        omega⟩
    else if sum < 1000000000 then ofNanos (a.second + 1) (sum - 1000000000)
    else ofNanos a.second (sum - 1000000000)
  else ofNanos a.second (a.nano + n)

/-- The instant a number of milliseconds later. -/
def addMillis (a : Instant) (ms : Int) : Instant := a.addNanos (ms * 1000000)

end Instant

/-! ## Spans -/

/-- A length of time, in nanoseconds. -/
structure Span where
  nanos : Nat
deriving DecidableEq, Repr, Inhabited

namespace Span

/-- A number of seconds. -/
def seconds (n : Nat) : Span := ⟨n * 1000000000⟩

/-- A number of milliseconds. -/
def millis (n : Nat) : Span := ⟨n * 1000000⟩

/-- A decimal fraction of `width` digits without the zeros at its end, behind a point. -/
def fraction (width n : Nat) : List Char :=
  if n = 0 then []
  else '.' :: ((Text.padded width n).reverse.dropWhile (· = '0')).reverse

/-- The short written form. -/
def text (s : Span) : String :=
  let unit (size width : Nat) (name : String) : String :=
    String.ofList (Text.numeral (s.nanos / size) ++ fraction width (s.nanos % size)) ++ name
  if s.nanos ≥ 1000000000 then unit 1000000000 9 "s"
  else if s.nanos ≥ 1000000 then unit 1000000 6 "ms"
  else if s.nanos ≥ 1000 then unit 1000 3 "µs"
  else unit 1 0 "ns"

end Span

end Steward.Time
