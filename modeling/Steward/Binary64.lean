import Steward.Text.Decimal

/-!
# Binary floating point numbers of 64 bits

A finite number is an integer of at most 53 bits times a power of two. It is read from a decimal by
rounding to the nearest, ties to the even neighbour, and written with the fewest digits that read
back, in full and without an exponent.
-/

namespace Steward

/-- A number of 64 bits. -/
inductive Binary64 where
  /-- The number `significand * 2 ^ exponent`, negated if `negative`. -/
  | finite (negative : Bool) (significand : Nat) (exponent : Int)
  | infinite (negative : Bool)
  | nan
deriving DecidableEq, Repr

namespace Binary64

/-- The smallest power of two that numbers are multiples of. -/
def leastExponent : Int := -1074

/-- The largest power of two by which a number of 53 bits is multiplied. -/
def mostExponent : Int := 971

/-- The bound of significands. -/
def significandBound : Nat := 9007199254740992

/-- A fraction rounded to the nearest integer, ties to the even neighbour. -/
def roundEven (num den : Nat) : Nat :=
  let q := num / den
  let twice := 2 * (num % den)
  if twice < den then q
  else if twice = den then q + q % 2
  else q + 1

/-- The fraction `num / den * base ^ shift` as numerator and denominator. -/
def scaled (num den base : Nat) (shift : Int) : Nat × Nat :=
  if shift ≥ 0 then (num * Nat.pow base shift.toNat, den)
  else (num, den * Nat.pow base (-shift).toNat)

/-- The number nearest to a fraction. -/
def ofFraction (negative : Bool) (num den : Nat) : Binary64 :=
  if num = 0 then finite negative 0 leastExponent
  else
    let guess : Int := (num.log2 : Int) - den.log2 - 53
    let (n, d) := scaled num den 2 (-guess)
    let exponent := if n ≥ significandBound * d then guess + 1 else guess
    let exponent := max exponent leastExponent
    let (n, d) := scaled num den 2 (-exponent)
    let significand := roundEven n d
    let (significand, exponent) :=
      if significand = significandBound then (significandBound / 2, exponent + 1)
      else (significand, exponent)
    if exponent > mostExponent then infinite negative else finite negative significand exponent

/-- The number nearest to `digits * 10 ^ exponent`. -/
def ofDecimal (negative : Bool) (digits : Nat) (exponent : Int) : Binary64 :=
  let size := (Text.numeral digits).length + exponent
  if digits = 0 || size < -400 then finite negative 0 leastExponent
  else if size > 400 then infinite negative
  else
    let (num, den) := scaled digits 1 10 exponent
    ofFraction negative num den

/-- Whether `digits * 10 ^ place` reads back as the positive number. -/
def readsBack (significand : Nat) (exponent : Int) (digits : Nat) (place : Int) : Bool :=
  ofDecimal false digits place = finite false significand exponent

/-- The fewest digits that read back as a positive number, with the place of the last one: of the
decimals with `count` digits the nearer neighbour, and one digit more where none reads back. -/
def shortestFrom (significand : Nat) (exponent : Int) (top : Int) :
    (fuel count : Nat) → Nat × Int
  | 0, _ => (significand, 0)
  | fuel + 1, count =>
    let place := top + 1 - count
    let (num, den) := scaled significand 1 2 exponent
    let (num, den) := scaled num den 10 (-place)
    let low := num / den
    let lowFits := readsBack significand exponent low place
    let highFits := readsBack significand exponent (low + 1) place
    let near := roundEven num den
    if lowFits && highFits then (near, place)
    else if lowFits then (low, place)
    else if highFits then (low + 1, place)
    else shortestFrom significand exponent top fuel (count + 1)

/-- The place of the first decimal digit of a positive number. -/
def topPlace (significand : Nat) (exponent : Int) : Int :=
  let (num, den) := scaled significand 1 2 exponent
  if num ≥ den then (Text.numeral (num / den)).length - 1
  else -((Text.numeral (den / num)).length : Int)

/-- A decimal in full, without an exponent. -/
def positional (digits : Nat) (place : Int) : List Char :=
  if place ≥ 0 then Text.numeral (digits * Nat.pow 10 place.toNat)
  else
    let unit := Nat.pow 10 (-place).toNat
    let fraction := Text.padded (-place).toNat (digits % unit)
    let fraction := (fraction.reverse.dropWhile (· = '0')).reverse
    Text.numeral (digits / unit) ++ (if fraction.isEmpty then [] else '.' :: fraction)

/-- The number in writing. -/
def text (x : Binary64) : String :=
  let signed (negative : Bool) (s : List Char) := String.ofList (if negative then '-' :: s else s)
  match x with
  | nan => "NaN"
  | infinite negative => signed negative "inf".toList
  | finite negative 0 _ => signed negative ['0']
  | finite negative significand exponent =>
    let (digits, place) :=
      shortestFrom significand exponent (topPlace significand exponent) 20 1
    signed negative (positional digits place)

/-- The nearest natural number below `bound`, a half going up; what is negative or no number counts
as zero, and what is too large as the largest. -/
def nearestNatural (bound : Nat) (x : Binary64) : Nat :=
  match x with
  | nan | infinite true | finite true _ _ => 0
  | infinite false => bound - 1
  | finite false significand exponent =>
    let (num, den) := scaled significand 1 2 exponent
    min ((2 * num + den) / (2 * den)) (bound - 1)

end Binary64

end Steward
