import Steward.Shell.Pattern
import Steward.Shell.Utility

/-!
# Filters

Programs that print what they read in another form: other characters, some of the lines, the lines
in another order, parts of lines.
-/

namespace Steward.Shell

open Text

/-- What is in files one after the other, or the input where none are named, and whether all of them
were there. -/
def contents (program : String) (paths : List String) : Act (List UInt8 × Bool) :=
  (if paths.isEmpty then ["-"] else paths).foldlM (fun (bytes, all) path => do
    match ← contentOf program path with
    | some content => return (bytes ++ content.toList, all)
    | none => return (bytes, false)) ([], true)

/-- The letters of options, and the other arguments. -/
def lettersOf (args : List String) : List Char × List String :=
  let isOption (arg : String) : Bool := arg.startsWith "-" && arg ≠ "-"
  (((args.takeWhile isOption).map fun arg => arg.toList.drop 1).flatten, args.dropWhile isOption)

/-- Bytes as lines without their ends. -/
def barelines (bytes : List UInt8) : List (List UInt8) :=
  (byteLines bytes).map fun line => if line.getLast? = some 10 then line.dropLast else line

/-- Prints lines. -/
def sayLines (lines : List (List UInt8)) : Act Unit :=
  print ⟨((lines.map (· ++ [10])).flatten).toArray⟩

/-- Prints what a change makes of the lines that are read. -/
def changeLines (program : String) (change : List (List UInt8) → List (List UInt8)) : Utility :=
  fun paths => do
    let (bytes, all) ← contents program paths
    sayLines (change (barelines bytes))
    return if all then 0 else 1

/-! ## Characters -/

/-- Names of sets of characters, and the ranges that they stand for. -/
def characterSets : List (String × String) :=
  [("[:upper:]", "A-Z"), ("[:lower:]", "a-z"), ("[:digit:]", "0-9"), ("[:alpha:]", "A-Za-z"),
    ("[:alnum:]", "0-9A-Za-z"), ("[:space:]", "\t-\r "), ("[:blank:]", "\t ")]

/-- Bytes with the ranges among them spread out. -/
def spread : List UInt8 → List UInt8
  | a :: 45 :: b :: rest =>
    (List.range (b.toNat + 1 - a.toNat)).map (fun i => UInt8.ofNat (a.toNat + i)) ++ spread rest
  | a :: rest => a :: spread rest
  | [] => []

/-- The bytes of a written set of characters. -/
def characters (s : String) : List UInt8 :=
  let text := characterSets.foldl (fun text (name, range) =>
    replaceAll name.toList range.toList text) s.toList
  spread (unescape false 0 text).1.toList

/-- Bytes without those that repeat the one before them, of a set. -/
def squeezed (set : List UInt8) : List UInt8 → List UInt8
  | a :: b :: rest =>
    if a = b && set.contains a then squeezed set (b :: rest) else a :: squeezed set (b :: rest)
  | bytes => bytes

/-- Prints the input with characters turned into others, removed with `-d`, or written once where
they repeat with `-s`; `-c` means all that are not in the first set. -/
def tr : Utility := fun args => do
  let (letters, sets) := lettersOf args
  let first := characters (sets.head?.getD "")
  let first := if letters.contains 'c' || letters.contains 'C' then
      ((List.range 256).map UInt8.ofNat).filter (!first.contains ·)
    else first
  let second := characters ((sets[1]?).getD "")
  let bytes := (← takeInput).toList
  let changed := if letters.contains 'd' then bytes.filter (!first.contains ·)
    else bytes.map fun b =>
      match first.idxOf? b with
      | some i => (((second[i]?).orElse fun _ => second.getLast?)).getD b
      | none => b
  let last := if second.isEmpty then first else second
  print ⟨(if letters.contains 's' then squeezed last changed else changed).toArray⟩
  return 0

/-- Prints each line backwards. -/
def rev : Utility := changeLines "rev" (·.map fun line => (bytesOf (decode line).reverse).toList)

/-! ## Lines -/

/-- A part of what is looked for in a line: a character of some kind, which may repeat. -/
structure Sought where
  part : Pattern.Part
  mayRepeat : Bool

/-- What may be left of a text after a part. -/
def Sought.after (p : Sought) (s : List Char) : List (List Char) :=
  if p.mayRepeat then runs (s.length + 1) s else p.part.after s
where
  /-- What may be left after the character again and again, at most so often. -/
  runs : Nat → List Char → List (List Char)
    | 0, s => [s]
    | n + 1, s => s :: (p.part.after s).flatMap (runs n)

/-- What is looked for in a line. -/
structure Wanted where
  parts : List Sought
  atStart : Bool := false
  atEnd : Bool := false

/-- The parts of a written pattern, of which the first `skip` characters are left out. -/
def soughtFrom : (skip : Nat) → List Char → List Sought
  | _, [] => []
  | skip + 1, _ :: rest => soughtFrom skip rest
  | 0, c :: rest =>
    let (part, skip) := match c, rest with
      | '\\', d :: _ => (Pattern.Part.exact d, 1)
      | '.', _ => (.one, 0)
      | '[', _ => (Pattern.bracket? rest).getD (.exact c, 0)
      | _, _ => (.exact c, 0)
    if (rest.drop skip).head? = some '*' then ⟨part, true⟩ :: soughtFrom (skip + 1) rest
    else ⟨part, false⟩ :: soughtFrom skip rest

/-- What a written pattern looks for. -/
def Wanted.ofText (s : List Char) : Wanted :=
  let (atStart, s) := match s with
    | '^' :: rest => (true, rest)
    | s => (false, s)
  let atEnd := s.getLast? = some '$'
  ⟨soughtFrom 0 (if atEnd then s.dropLast else s), atStart, atEnd⟩

/-- The shortest of what may be left of a text that starts with what is wanted. -/
def Wanted.rest? (w : Wanted) (s : List Char) : Option (List Char) :=
  let rests := w.parts.foldl (fun texts p => texts.flatMap p.after) [s]
  let rests := if w.atEnd then rests.filter List.isEmpty else rests
  rests.foldl (fun best rest =>
    match best with
    | some b => if rest.length < b.length then some rest else some b
    | none => some rest) none

/-- The text before the first place where what is wanted stands, and the text after it. -/
def Wanted.cut? (w : Wanted) (s : List Char) : Option (List Char × List Char) :=
  match w.rest? s, s with
  | some rest, _ => some ([], rest)
  | none, [] => none
  | none, c :: more =>
    if w.atStart then none else (w.cut? more).map fun (before, rest) => (c :: before, rest)

/-- Prints the lines in which a pattern is found, or with `-v` those in which it is not; with `-c`
only their number, with `-q` nothing. -/
def grep : Utility := fun args => do
  let (letters, args) := lettersOf args
  let fold (s : List Char) : List Char :=
    if letters.contains 'i' then s.map Char.toLower else s
  let pattern := fold (args.head?.getD "").toList
  let wanted : Wanted :=
    if letters.contains 'F' then { parts := pattern.map fun c => ⟨.exact c, false⟩ }
    else .ofText pattern
  let wanted :=
    if letters.contains 'x' then { wanted with atStart := true, atEnd := true } else wanted
  let (bytes, all) ← contents "grep" args.tail
  let found := (barelines bytes).filter fun line =>
    (wanted.cut? (fold (decode line))).isSome ≠ letters.contains 'v'
  if letters.contains 'q' then pure ()
  else if letters.contains 'c' then say (decimal found.length ++ "\n")
  else sayLines found
  return if !all then 2 else if found.isEmpty then 1 else 0

/-- A line with what is wanted replaced, once or, if `everywhere`, as often as it is found; at most
`fuel` times. -/
def substituted (w : Wanted) (new : List Char) (everywhere : Bool) :
    (fuel : Nat) → List Char → List Char
  | 0, s => s
  | fuel + 1, s =>
    match w.cut? s with
    | none => s
    | some (before, rest) =>
      if !everywhere || before.length + rest.length = s.length || w.atStart then
        before ++ new ++ rest
      else before ++ new ++ substituted w new everywhere fuel rest

/-- Prints lines with text replaced as a command `s/old/new/` tells. -/
def sed : Utility := fun args => do
  match args with
  | command :: paths =>
    match command.toList with
    | 's' :: mark :: rest =>
      match splitOn mark rest with
      | [old, new, flags] =>
        let change (line : List UInt8) : List UInt8 :=
          let s := decode line
          (bytesOf (substituted (.ofText old) new (flags.contains 'g') (s.length + 1) s)).toList
        changeLines "sed" (·.map change) paths
      | _ => complain "sed: -e expression #1, char 0: unterminated `s' command" 1
    | _ => complain "sed: -e expression #1, char 1: unknown command" 1
  | [] => complain "sed: no script" 1

/-- The number that a line starts with. -/
def leadingNumber (line : List UInt8) : Int :=
  let s := (decode line).dropWhile isSplit
  match s with
  | '-' :: rest => -Int.ofNat (Nat.ofDigitChars 10 (rest.takeWhile Char.isDigit) 0)
  | s => Int.ofNat (Nat.ofDigitChars 10 (s.takeWhile Char.isDigit) 0)

/-- Lines without those that are the same as the one before, with the number of each. -/
def grouped : List (List UInt8) → List (Nat × List UInt8)
  | [] => []
  | line :: rest =>
    match grouped rest with
    | (n, next) :: more =>
      if next = line then (n + 1, line) :: more else (1, line) :: (n, next) :: more
    | [] => [(1, line)]

/-- Prints lines in order; as numbers with `-n`, the last first with `-r`, each once with `-u`. -/
def sort : Utility := fun args =>
  let (letters, paths) := lettersOf args
  let atMost (a b : List UInt8) : Bool :=
    if letters.contains 'n' && leadingNumber a ≠ leadingNumber b then
      leadingNumber a < leadingNumber b
    else !(b < a)
  changeLines "sort" (fun lines =>
    let sorted := lines.mergeSort fun a b => if letters.contains 'r' then atMost b a else atMost a b
    if letters.contains 'u' then (grouped sorted).map (·.2) else sorted) paths

/-- Prints lines, those that repeat the one before only once; with `-c` with their numbers. -/
def uniq : Utility := fun args =>
  let (letters, paths) := lettersOf args
  changeLines "uniq" (fun lines => (grouped lines).map fun (n, line) =>
    if letters.contains 'c' then
      (bytesOf (List.replicate (7 - (numeral n).length) ' ' ++ numeral n ++ [' '])).toList ++ line
    else line) paths

/-- The places in a list that a text such as `1,3-5,7-` means, out of so many. -/
def placesOf (count : Nat) (s : String) : List Nat :=
  let wanted := (splitOn ',' s.toList).map fun range =>
    match splitOn '-' range with
    | [a, b] => ((ofNumeral? a).getD 1, (ofNumeral? b).getD count)
    | _ => ((ofNumeral? range).getD 0, (ofNumeral? range).getD 0)
  (List.range count).filter fun i => wanted.any fun (a, b) => a ≤ i + 1 && i + 1 ≤ b

/-- Prints parts of lines: the fields told by `-f` between the marks told by `-d`, or the characters
told by `-c`. -/
def cut : Utility := fun args =>
  let option (letter : Char) : Option String := go letter args
  let mark := ((option 'd').bind (·.toList.head?)).getD '\t'
  changeLines "cut" (fun lines => lines.map fun line =>
    let s := decode line
    let picked := match option 'f', (option 'c').orElse fun _ => option 'b' with
      | some list, _ =>
        let fields := splitOn mark s
        if fields.length < 2 then s
        else List.intercalate [mark] ((placesOf fields.length list).filterMap (fields[·]?))
      | none, some list => (placesOf s.length list).filterMap (s[·]?)
      | none, none => s
    (bytesOf picked).toList) []
where
  /-- What is told behind a letter, in the same argument or the next. -/
  go (letter : Char) : List String → Option String
    | [] => none
    | arg :: rest =>
      match arg.toList with
      | '-' :: l :: value =>
        if l = letter then (if value.isEmpty then rest.head? else some (String.ofList value))
        else go letter rest
      | _ => go letter rest

/-- Prints what it reads and writes it to files too. -/
def tee : Utility := fun args => do
  let (letters, paths) := lettersOf args
  let bytes ← takeInput
  print bytes
  forEach paths fun path => do
    let place ← placeOf path
    let disk := (← get).machine.disk
    let old := if letters.contains 'a' then (disk.content? place).getD .empty else ByteArray.empty
    changeDisk (·.write? place (old ++ bytes)) ("tee: " ++ path ++ ": No such file or directory")

/-! ## Values -/

/-- Prints variables that programs see, all of them or those that are named. -/
def printVariables : Utility := fun names => do
  let seen := (← get).vars.filter (·.isShared)
  if names.isEmpty then
    say (String.join (seen.map fun v => v.name ++ "=" ++ v.value ++ "\n"))
    return 0
  else
    forEach names fun name => do
      match seen.find? (·.name = name) with
      | some v =>
        say (v.value ++ "\n")
        return 0
      | none => return 1

/-- The value of two texts joined, of numbers where both are. -/
def joinedText (a o b : String) : Option String :=
  let truth (holds : Bool) : Option String := some (if holds then "1" else "0")
  match ofSigned? a.toList, ofSigned? b.toList with
  | some x, some y =>
    match o with
    | "+" => some (decimalInt (x + y))
    | "-" => some (decimalInt (x - y))
    | "*" => some (decimalInt (x * y))
    | "/" => if y = 0 then none else some (decimalInt (Int.tdiv x y))
    | "%" => if y = 0 then none else some (decimalInt (Int.tmod x y))
    | "=" | "==" => truth (x = y)
    | "!=" => truth (x ≠ y)
    | "<" => truth (x < y)
    | "<=" => truth (x ≤ y)
    | ">" => truth (y < x)
    | ">=" => truth (y ≤ x)
    | _ => none
  | _, _ =>
    match o with
    | "=" | "==" => truth (a = b)
    | "!=" => truth (a ≠ b)
    | _ => none

/-- Prints the value of two texts joined; one that is zero or empty counts as a failure. -/
def expr : Utility := fun args => do
  let value := match args with
    | [a] => some a
    | [a, o, b] => joinedText a o b
    | _ => none
  match value with
  | some value =>
    say (value ++ "\n")
    return if value.isEmpty || value = "0" then 1 else 0
  | none => complain "expr: syntax error" 2

/-- The lines that a program prints which never ends of its own accord: more than a reader takes. -/
def manyLines : Nat := 50000

/-- Prints a line again and again until nobody reads it. -/
def yes : Utility := fun args => do
  match (← get).outSink with
  | .pipe _ =>
    let line := (if args.isEmpty then "y" else " ".intercalate args) ++ "\n"
    print ⟨((List.replicate manyLines line.toUTF8.toList).flatten).toArray⟩
    return 141
  | _ => throw .overdue

/-- The filters by their names. -/
def filter? (name : String) : Option Utility :=
  match name with
  | "tr" => some tr
  | "rev" => some rev
  | "grep" => some grep
  | "sed" => some sed
  | "sort" => some sort
  | "uniq" => some uniq
  | "cut" => some cut
  | "tee" => some tee
  | "printenv" => some printVariables
  | "expr" => some expr
  | "yes" => some yes
  | _ => none

end Steward.Shell
