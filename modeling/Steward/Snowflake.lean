import Steward.Text.Blank
import Steward.Text.Decimal
import Steward.Time.Instant
import Steward.Word

/-!
# Snowflakes

The 64-bit identifiers of servers, channels and users. The upper 42 bits hold the time of creation,
in milliseconds from the start of 2015.

* `Snowflake.read`, `Snowflake.text`: the decimal form; only a positive identifier is read from it.
-/

namespace Steward

/-- An identifier of a server, channel or user. -/
structure Snowflake where
  value : Int
deriving DecidableEq, Repr, Inhabited

namespace Snowflake

/-- Why an identifier was refused. -/
inductive Fault where
  | format
  | notPositive
  | outOfRange
deriving DecidableEq, Repr

/-- The text shown for a refusal. -/
def Fault.message : Fault → String
  | format => "invalid snowflake format"
  | notPositive => "snowflake must be positive"
  | outOfRange => "snowflake out of range"

/-- The smallest and the largest number of 64 bits. -/
def inRange (n : Int) : Bool := -Word.bound64 ≤ n && n < Word.bound64

/-- Reads an identifier: an optionally signed decimal of 64 bits between blank characters, and
positive. -/
def readChars (s : List Char) : Except Fault Snowflake :=
  match (Text.ofSigned? (Text.trim s)).filter inRange with
  | none => .error .format
  | some n => if n ≤ 0 then .error .notPositive else .ok ⟨n⟩

/-- Reads an identifier from a string. -/
def read (s : String) : Except Fault Snowflake := readChars s.toList

/-- The decimal form. -/
def text (id : Snowflake) : String := Text.decimalInt id.value

/-- The milliseconds from the start of 1970 to the time of creation. -/
def millis (id : Snowflake) : Int := id.value / 4194304 + 1420070400000

/-- The time of creation. -/
def createdAt (id : Snowflake) : Time.Instant := .ofMillis id.millis

end Snowflake

end Steward
