import Steward.Text.Blank
import Steward.Text.Decimal

/-!
# Arithmetic in scripts

Formulas over 64-bit numbers with sign, which wrap. A name stands for the number that a variable
holds, and for zero where there is none; an assignment is a formula too.
-/

namespace Steward.Shell

open Text

/-- What joins two numbers. -/
inductive Operator where
  | bitOr | bitXor | bitAnd | equal | unequal | atMost | atLeast | less | more
  | left | right | plus | minus | times | over | rest
deriving DecidableEq, Repr

/-- A formula. -/
inductive Formula where
  | number (n : Int64)
  | name (s : String)
  | negative (a : Formula)
  | inverted (a : Formula)
  | negated (a : Formula)
  | joined (o : Operator) (a b : Formula)
  | both (a b : Formula)
  | either (a b : Formula)
  | choice (condition a b : Formula)
  /-- Gives a variable the value, which is joined to its old one where an operator is given. -/
  | assigned (s : String) (o : Option Operator) (a : Formula)
deriving Repr

/-- Why a formula has no value. -/
inductive Formula.Fault where
  | expecting (what : String)
  | divisionByZero
  /-- A variable holds no number. -/
  | illegal (value : String)
deriving DecidableEq, Repr

/-- The words of a complaint about the formula `s`. -/
def Formula.Fault.message (s : String) : Formula.Fault → String
  | expecting what => "arithmetic expression: expecting " ++ what ++ ": \"" ++ s ++ "\""
  | divisionByZero => "arithmetic expression: division by zero: \"" ++ s ++ "\""
  | illegal value => "Illegal number: " ++ value

/-! ## Reading -/

/-- A word of a formula. -/
inductive Formula.Token where
  | number (n : Int64)
  | name (s : String)
  | mark (s : String)
deriving DecidableEq, Repr

namespace Formula

/-- The marks of formulas; a longer one comes before those that it starts with. -/
def marks : List String :=
  ["<<=", ">>=", "<<", ">>", "<=", ">=", "==", "!=", "&&", "||", "+=", "-=", "*=", "/=", "%=", "&=",
    "|=", "^=", "<", ">", "=", "!", "&", "|", "+", "-", "*", "/", "%", "^", "~", "?", ":", "(", ")"]

/-- The greatest number. -/
def greatest : Nat := 9223372036854775807

/-- The value of a digit in bases up to sixteen. -/
def digit? (base : Nat) (c : Char) : Option Nat :=
  let value := if c.isDigit then c.toNat - 48
    else if 'a' ≤ c && c ≤ 'f' then c.toNat - 87
    else if 'A' ≤ c && c ≤ 'F' then c.toNat - 55
    else base
  if value < base then some value else none

/-- The number at the start of a text, which may be hexadecimal or octal, and its length; one that
is too great stands for the greatest. -/
def numberOf (s : List Char) : Int64 × Nat :=
  let digits (base : Nat) (s : List Char) : List Char := s.takeWhile fun c => (digit? base c).isSome
  let value (base : Nat) (s : List Char) : Int64 :=
    let n := s.foldl (fun n c => base * n + (digit? base c).getD 0) 0
    Int64.ofNat (min n greatest)
  match s with
  | '0' :: x :: c :: _ =>
    if (x = 'x' || x = 'X') && (digit? 16 c).isSome then
      let hex := digits 16 (s.drop 2)
      (value 16 hex, hex.length + 2)
    else (value 8 (digits 8 s), (digits 8 s).length)
  | '0' :: _ => (value 8 (digits 8 s), (digits 8 s).length)
  | _ => (value 10 (digits 10 s), (digits 10 s).length)

/-- The words of a text, of which the first `skip` characters are left out; what is no word is a
mark that no formula has. -/
def tokens : (skip : Nat) → List Char → List Token
  | _, [] => []
  | skip + 1, _ :: rest => tokens skip rest
  | 0, c :: rest =>
    if c = ' ' || c = '\t' || c = '\n' then tokens 0 rest
    else if c.isDigit then
      let (n, length) := numberOf (c :: rest)
      .number n :: tokens (length - 1) rest
    else if c.isAlpha || c = '_' then
      let name := (c :: rest).takeWhile fun c => c.isAlphanum || c = '_'
      .name (String.ofList name) :: tokens (name.length - 1) rest
    else
      match marks.find? fun m => m.toList.isPrefixOf (c :: rest) with
      | some m => .mark m :: tokens (m.length - 1) rest
      | none => .mark c.toString :: tokens 0 rest

/-- The operators that bind equally, the weakest first, behind `||` and `&&`. -/
def level (n : Nat) : List (String × Operator) :=
  match n with
  | 2 => [("|", .bitOr)]
  | 3 => [("^", .bitXor)]
  | 4 => [("&", .bitAnd)]
  | 5 => [("==", .equal), ("!=", .unequal)]
  | 6 => [("<=", .atMost), (">=", .atLeast), ("<", .less), (">", .more)]
  | 7 => [("<<", .left), (">>", .right)]
  | 8 => [("+", .plus), ("-", .minus)]
  | 9 => [("*", .times), ("/", .over), ("%", .rest)]
  | _ => []

/-- The formula that a mark makes of two, where it is one of a level. -/
def join? (n : Nat) (mark : String) : Option (Formula → Formula → Formula) :=
  match n, mark with
  | 0, "||" => some either
  | 1, "&&" => some both
  | n, mark => ((level n).lookup mark).map joined

/-- The operator of a mark of assignment; a plain one has none. -/
def assignment? (mark : String) : Option (Option Operator) :=
  match mark with
  | "=" => some none
  | "<<=" => some (some .left)
  | ">>=" => some (some .right)
  | "+=" => some (some .plus)
  | "-=" => some (some .minus)
  | "*=" => some (some .times)
  | "/=" => some (some .over)
  | "%=" => some (some .rest)
  | "&=" => some (some .bitAnd)
  | "|=" => some (some .bitOr)
  | "^=" => some (some .bitXor)
  | _ => none

mutual

/-- A number, a name, a formula in parentheses, or one behind a sign. -/
def readSign (fuel : Nat) (ts : List Token) : Except Fault (Formula × List Token) :=
  match fuel, ts with
  | 0, _ | _, [] => .error (.expecting "primary")
  | _ + 1, .number n :: ts => .ok (number n, ts)
  | _ + 1, .name s :: ts => .ok (name s, ts)
  | fuel + 1, .mark m :: ts =>
    let signed (make : Formula → Formula) : Except Fault (Formula × List Token) := do
      let (a, ts) ← readSign fuel ts
      return (make a, ts)
    match m with
    | "+" => signed id
    | "-" => signed negative
    | "~" => signed inverted
    | "!" => signed negated
    | "(" => do
      let (a, ts) ← readFormula fuel ts
      match ts with
      | .mark ")" :: ts => return (a, ts)
      | _ => throw (.expecting "\x27)\x27")
    | _ => .error (.expecting "primary")

/-- Formulas joined by the operators of a level and those that bind more tightly. -/
def readLevel (fuel : Nat) (n : Nat) (ts : List Token) : Except Fault (Formula × List Token) :=
  match fuel with
  | 0 => .error (.expecting "primary")
  | fuel + 1 =>
    if n > 9 then readSign fuel ts
    else do
      let (a, ts) ← readLevel fuel (n + 1) ts
      readMore fuel n a ts

/-- The formulas of a level that follow the first. -/
def readMore (fuel : Nat) (n : Nat) (a : Formula) (ts : List Token) :
    Except Fault (Formula × List Token) :=
  match fuel with
  | 0 => .ok (a, ts)
  | fuel + 1 =>
    match ts with
    | .mark m :: rest =>
      match join? n m with
      | some make => do
        let (b, rest) ← readLevel fuel (n + 1) rest
        readMore fuel n (make a b) rest
      | none => .ok (a, ts)
    | _ => .ok (a, ts)

/-- A formula. -/
def readFormula (fuel : Nat) (ts : List Token) : Except Fault (Formula × List Token) :=
  match fuel with
  | 0 => .error (.expecting "primary")
  | fuel + 1 =>
    let choice : Except Fault (Formula × List Token) := do
      let (condition, ts) ← readLevel fuel 0 ts
      match ts with
      | .mark "?" :: ts =>
        let (a, ts) ← readFormula fuel ts
        match ts with
        | .mark ":" :: ts =>
          let (b, ts) ← readFormula fuel ts
          return (.choice condition a b, ts)
        | _ => throw (.expecting "\x27:\x27")
      | ts => return (condition, ts)
    match ts with
    | .name s :: .mark m :: rest =>
      match assignment? m with
      | some o => do
        let (a, rest) ← readFormula fuel rest
        return (assigned s o a, rest)
      | none => choice
    | _ => choice

end

/-- The formula that a text is. -/
def read (s : String) : Except Fault Formula := do
  let ts := tokens 0 s.toList
  match ← readFormula (16 * (ts.length + 1)) ts with
  | (a, []) => return a
  | _ => throw (.expecting "EOF")

/-! ## Values -/

/-- One for what holds, zero for what does not. -/
def truth (b : Bool) : Int64 := if b then 1 else 0

/-- Two numbers joined. -/
def Operator.apply (o : Operator) (a b : Int64) : Except Fault Int64 :=
  match o with
  | .bitOr => .ok (a ||| b)
  | .bitXor => .ok (a ^^^ b)
  | .bitAnd => .ok (a &&& b)
  | .equal => .ok (truth (a = b))
  | .unequal => .ok (truth (a ≠ b))
  | .atMost => .ok (truth (a ≤ b))
  | .atLeast => .ok (truth (b ≤ a))
  | .less => .ok (truth (a < b))
  | .more => .ok (truth (b < a))
  | .left => .ok (a <<< b)
  | .right => .ok (a >>> b)
  | .plus => .ok (a + b)
  | .minus => .ok (a - b)
  | .times => .ok (a * b)
  | .over => if b = 0 then .error .divisionByZero else .ok (a / b)
  | .rest => if b = 0 then .error .divisionByZero else .ok (a % b)

/-- Values of variables; the first one of a name counts. -/
abbrev Values := List (String × String)

/-- The number that a variable holds, which may have a sign. -/
def valueOf (s : String) (values : Values) : Except Fault Int64 :=
  let text := ((values.lookup s).getD "")
  let chars := Text.trim text.toList
  let (isNegative, digits) := match chars with
    | '-' :: digits => (true, digits)
    | '+' :: digits => (false, digits)
    | digits => (false, digits)
  let (n, length) := numberOf digits
  if chars.isEmpty then .ok 0
  else if digits.isEmpty || length ≠ digits.length then .error (.illegal text)
  else .ok (if isNegative then -n else n)

/-- The value of a formula, and the variables after it. -/
def eval : Formula → Values → Except Fault (Int64 × Values)
  | number n, vs => .ok (n, vs)
  | name s, vs => do return (← valueOf s vs, vs)
  | negative a, vs => do
    let (x, vs) ← eval a vs
    return (-x, vs)
  | inverted a, vs => do
    let (x, vs) ← eval a vs
    return (~~~x, vs)
  | negated a, vs => do
    let (x, vs) ← eval a vs
    return (truth (x = 0), vs)
  | joined o a b, vs => do
    let (x, vs) ← eval a vs
    let (y, vs) ← eval b vs
    return (← Operator.apply o x y, vs)
  | both a b, vs => do
    let (x, vs) ← eval a vs
    if x = 0 then return (0, vs)
    else
      let (y, vs) ← eval b vs
      return (truth (y ≠ 0), vs)
  | either a b, vs => do
    let (x, vs) ← eval a vs
    if x ≠ 0 then return (1, vs)
    else
      let (y, vs) ← eval b vs
      return (truth (y ≠ 0), vs)
  | choice condition a b, vs => do
    let (x, vs) ← eval condition vs
    if x ≠ 0 then eval a vs else eval b vs
  | assigned s o a, vs => do
    let (x, vs) ← eval a vs
    let y ← match o with
      | some o => do Operator.apply o (← valueOf s vs) x
      | none => pure x
    return (y, (s, Text.decimalInt y.toInt) :: vs)

end Formula

end Steward.Shell
