import Steward.Shell.State

/-!
# What `echo` and `printf` print

Escapes in texts, and formats with places for arguments. An escape may name a byte that is no
character of its own.
-/

namespace Steward.Shell

/-- The bytes of a text. -/
def bytesOf (s : List Char) : ByteArray := (String.ofList s).toUTF8

/-- The byte of a one-letter escape. -/
def letterEscape? : Char → Option UInt8
  | 'a' => some 7
  | 'b' => some 8
  | 'e' => some 27
  | 'f' => some 12
  | 'n' => some 10
  | 'r' => some 13
  | 't' => some 9
  | 'v' => some 11
  | '\\' => some 92
  | _ => none

/-- Whether a character is an octal digit. -/
def isOctal (c : Char) : Bool := '0' ≤ c && c ≤ '7'

/-- The byte of up to three octal digits at the start, and their number. -/
def octal (s : List Char) : UInt8 × Nat :=
  let digits := (s.take 3).takeWhile isOctal
  (UInt8.ofNat (digits.foldl (fun n c => 8 * n + (c.toNat - 48)) 0), digits.length)

/-- The bytes of a text with its escapes resolved, of which the first `skip` characters are left
out, and whether an escape ended it. Octal escapes begin with a zero where `zeroFirst`. -/
def unescape (zeroFirst : Bool) : (skip : Nat) → List Char → ByteArray × Bool
  | _, [] => (.empty, false)
  | skip + 1, _ :: rest => unescape zeroFirst skip rest
  | 0, '\\' :: e :: rest =>
    let then' (bytes : ByteArray) (skip : Nat) : ByteArray × Bool :=
      let (more, ended) := unescape zeroFirst skip (e :: rest)
      (bytes ++ more, ended)
    match letterEscape? e with
    | some b => then' ⟨#[b]⟩ 1
    | none =>
      if e = 'c' then (.empty, true)
      else if zeroFirst && e = '0' then then' ⟨#[(octal rest).1]⟩ ((octal rest).2 + 1)
      else if !zeroFirst && isOctal e then
        then' ⟨#[(octal (e :: rest)).1]⟩ (octal (e :: rest)).2
      else then' "\\".toUTF8 0
  | 0, c :: rest =>
    let (more, ended) := unescape zeroFirst 0 rest
    (bytesOf [c] ++ more, ended)

/-- What `echo` prints. The one that the interpreter has itself resolves escapes. -/
def echoed (isOwn : Bool) (args : List String) : ByteArray :=
  let (newline, args) := match args with
    | "-n" :: args => (false, args)
    | args => (true, args)
  let text := " ".intercalate args
  let (bytes, ended) := if isOwn then unescape true 0 text.toList else (text.toUTF8, false)
  if newline && !ended then bytes ++ "\n".toUTF8 else bytes

/-! ## Formats -/

/-- A place of a format. -/
structure Spot where
  flags : List Char := []
  width : Nat := 0
  precision : Option Nat := none
  kind : Char := 's'

/-- The place behind a percent sign, and its length. -/
def spotOf (s : List Char) : Spot × Nat :=
  let flags := s.takeWhile fun c => c = '-' || c = '+' || c = ' ' || c = '0' || c = '#'
  let digits := (s.drop flags.length).takeWhile Char.isDigit
  let rest := s.drop (flags.length + digits.length)
  let point := match rest with
    | '.' :: rest => '.' :: rest.takeWhile Char.isDigit
    | _ => []
  let precision := if point.isEmpty then none else some (Nat.ofDigitChars 10 point.tail 0)
  match rest.drop point.length with
  | kind :: _ =>
    (⟨flags, Nat.ofDigitChars 10 digits 0, precision, kind⟩,
      flags.length + digits.length + point.length + 1)
  | [] => ({ kind := '%' }, s.length)

/-- Text filled up to the width of a place: behind it with `-`, with zeros behind its sign with `0`
where it is a number, else before it. -/
def Spot.filled (p : Spot) (isNumber : Bool) (text : List Char) : List Char :=
  let fill (c : Char) : List Char := List.replicate (p.width - text.length) c
  if p.flags.contains '-' then text ++ fill ' '
  else if isNumber && p.flags.contains '0' && p.precision.isNone then
    match text with
    | '-' :: digits => '-' :: fill '0' ++ digits
    | digits => fill '0' ++ digits
  else fill ' ' ++ text

/-- The digits of a number at a place, at least as many as its precision tells. -/
def Spot.digits (p : Spot) (base n : Nat) : List Char :=
  let digits := Nat.toDigits base n
  List.replicate (p.precision.getD 0 - digits.length) '0' ++ digits

/-- The number that an argument is, and a complaint where it is none. -/
def numberArgument (arg : String) : Int × List String :=
  match arg.toList with
  | '\x27' :: c :: _ | '"' :: c :: _ => (c.toNat, [])
  | chars =>
    let (sign, digits) := match chars with
      | '-' :: digits => (['-'], digits)
      | '+' :: digits => (['+'], digits)
      | digits => ([], digits)
    let digits := digits.takeWhile Char.isDigit
    match Text.ofSigned? (sign ++ digits) with
    | none => (0, [arg ++ ": expected numeric value"])
    | some n =>
      if sign.length + digits.length = chars.length then (n, [])
      else (n, [arg ++ ": not completely converted"])

/-- What an argument is at a place of a format, and a complaint where it does not fit. -/
def Spot.text (p : Spot) (arg : Option String) : ByteArray × List String :=
  let (n, complaints) := match arg with
    | some arg => numberArgument arg
    | none => (0, [])
  let unsigned := if n < 0 then (n + 18446744073709551616).toNat else n.toNat
  let arg := arg.getD ""
  let number (digits : List Char) : ByteArray × List String :=
    (bytesOf (p.filled true digits), complaints)
  match p.kind with
  | 'd' | 'i' =>
    let sign := if n < 0 then ['-'] else if p.flags.contains '+' then ['+']
      else if p.flags.contains ' ' then [' '] else []
    number (sign ++ p.digits 10 n.natAbs)
  | 'u' => number (p.digits 10 unsigned)
  | 'o' => number (p.digits 8 unsigned)
  | 'x' => number (p.digits 16 unsigned)
  | 'X' => number ((p.digits 16 unsigned).map Char.toUpper)
  | 'c' => (bytesOf (p.filled false (arg.toList.take 1)), [])
  | 'b' => ((unescape true 0 arg.toList).1, [])
  | _ =>
    let text := match p.precision with
      | some n => arg.toList.take n
      | none => arg.toList
    (bytesOf (p.filled false text), [])

/-- One pass over a format: what it prints, its complaints, and the arguments that are left. -/
def formatOnce :
    (fuel : Nat) → List Char → List String → (ByteArray × List String) × List String
  | 0, _, args => ((.empty, []), args)
  | _, [], args => ((.empty, []), args)
  | fuel + 1, '%' :: rest, args =>
    let (p, length) := spotOf rest
    if p.kind = '%' then
      let ((more, complaints), left) := formatOnce fuel (rest.drop length) args
      (("%".toUTF8 ++ more, complaints), left)
    else
      let (bytes, first) := p.text args.head?
      let ((more, complaints), left) := formatOnce fuel (rest.drop length) args.tail
      ((bytes ++ more, first ++ complaints), left)
  | fuel + 1, s, args =>
    let plain := s.takeWhile (· ≠ '%')
    let ((more, complaints), left) := formatOnce fuel (s.drop plain.length) args
    (((unescape false 0 plain).1 ++ more, complaints), left)

/-- What `printf` prints, and its complaints: the format is used again while it takes arguments and
some are left. -/
def formatted (format : List Char) : (fuel : Nat) → List String → ByteArray × List String
  | 0, _ => (.empty, [])
  | fuel + 1, args =>
    let (here, left) := formatOnce (format.length + 1) format args
    if left.isEmpty || left.length = args.length then here
    else
      let more := formatted format fuel left
      (here.1 ++ more.1, here.2 ++ more.2)

end Steward.Shell
