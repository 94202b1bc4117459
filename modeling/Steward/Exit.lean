import Steward.Json.Basic
import Steward.Text.Decimal

/-!
# How programs end

A program ends with a code, zero for success, or a signal stops it.
-/

namespace Steward

/-- How a program ended. -/
inductive Exit where
  | code (n : Int)
  | signal
deriving DecidableEq, Repr

namespace Exit

/-- Whether a program ended with success. -/
def passed : Exit → Bool
  | code n => n = 0
  | signal => false

/-- The end as messages show it. -/
def text : Exit → String
  | code n => "Some(" ++ Text.decimalInt n ++ ")"
  | signal => "None"

instance : Json.Encode Exit where
  encode
    | code n => .int n
    | signal => .null

end Exit

end Steward
