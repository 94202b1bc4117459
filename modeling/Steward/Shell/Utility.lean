import Steward.Shell.Printed
import Steward.Text.Blank

/-!
# Small programs

The programs that scripts can start: they print, read, compare, and look after files.
-/

namespace Steward.Shell

open Text

/-- A program: what it does with its arguments, and the code that it ends with. -/
abbrev Utility := List String → Act Nat

/-! ## Files -/

/-- The place of a path. -/
def placeOf (path : String) : Act Place := do return .of (← get).folder path

/-- Changes the disk, or complains where that cannot be. -/
def changeDisk (change : Disk → Option Disk) (complaint : String) : Act Nat := do
  let s ← get
  match change s.machine.disk with
  | some disk =>
    set { s with machine := { s.machine with disk } }
    return 0
  | none => complain complaint 1

/-- Does the same with each argument; the code is that of the last that failed. -/
def forEach (args : List String) (act : String → Act Nat) : Act Nat :=
  args.foldlM (fun code arg => do
    let c ← act arg
    return if c = 0 then code else c) 0

/-- The content of a file, or of the input for a single dash; complains where there is none. -/
def contentOf (program path : String) : Act (Option ByteArray) := do
  if path = "-" then return some (← takeInput)
  let place ← placeOf path
  if place = ["dev", "null"] then return some ByteArray.empty
  let disk := (← get).machine.disk
  match disk.content? place with
  | some content => return some content
  | none =>
    let cause := if disk.isFolder place then "Is a directory" else "No such file or directory"
    let cause := if program = "head" || program = "tail" then
        if disk.isFolder place then "error reading '" ++ path ++ "': " ++ cause
        else "cannot open '" ++ path ++ "' for reading: " ++ cause
      else path ++ ": " ++ cause
    let _ ← complain (program ++ ": " ++ cause) 1
    return none

/-- Prints files one after the other, or the input where none are named. -/
def cat : Utility := fun args =>
  forEach (if args.isEmpty then ["-"] else args.filter (· ≠ "-u")) fun path => do
    match ← contentOf "cat" path with
    | some content =>
      print content
      return 0
    | none => return 1

/-- Makes folders; with `-p` also those on the way to them. -/
def mkdir : Utility := fun args =>
  forEach (args.filter (· ≠ "-p")) fun path => do
    let place ← placeOf path
    let complaint := "mkdir: cannot create directory '" ++ path ++ "': "
    if args.contains "-p" then
      changeDisk (·.makeFolders? place) (complaint ++ "Not a directory")
    else
      let disk := (← get).machine.disk
      if (disk.find? place).isSome then complain (complaint ++ "File exists") 1
      else if disk.isFolder place.dropLast then
        changeDisk (fun d => some (d.put place .folder)) complaint
      else complain (complaint ++ "No such file or directory") 1

/-- The place that a file goes to: into a folder under its own name, or to the place itself. -/
def destination (disk : Disk) (source target : Place) : Place :=
  if disk.isFolder target then target ++ source.getLast?.toList else target

/-- Copies a file; a moved one is gone afterwards. -/
def copy (program : String) (isMove : Bool) : Utility := fun args => do
  match args.filter (!·.startsWith "-") with
  | [from', to'] =>
    let source ← placeOf from'
    let disk := (← get).machine.disk
    let target := destination disk source (← placeOf to')
    match disk.content? source with
    | none =>
      complain (program ++ ": cannot stat '" ++ from' ++ "': No such file or directory") 1
    | some content =>
      changeDisk (fun d => (d.write? target content).map fun d =>
          if isMove then d.remove source else d)
        (program ++ ": cannot create regular file '" ++ to' ++ "': No such file or directory")
  | _ => complain (program ++ ": missing file operand") 1

/-- Removes files, and folders with `-r`; with `-f` what is missing does not matter. -/
def rm : Utility := fun args => do
  let flags := ((args.filter (·.startsWith "-")).map String.toList).flatten
  forEach (args.filter (!·.startsWith "-")) fun path => do
    let place ← placeOf path
    let complaint := "rm: cannot remove '" ++ path ++ "': "
    match (← get).machine.disk.find? place with
    | none =>
      if flags.contains 'f' then return 0
      else complain (complaint ++ "No such file or directory") 1
    | some .folder =>
      if flags.contains 'r' || flags.contains 'R' then
        changeDisk (fun d => some (d.remove place)) complaint
      else complain (complaint ++ "Is a directory") 1
    | some (.file _) => changeDisk (fun d => some (d.remove place)) complaint

/-- Makes empty files where there are none. -/
def touch : Utility := fun args =>
  forEach args fun path => do
    let place ← placeOf path
    changeDisk (fun d => if (d.find? place).isSome then some d else d.write? place .empty)
      ("touch: cannot touch '" ++ path ++ "': No such file or directory")

/-- Lists the names in a folder. -/
def ls : Utility := fun args => do
  let paths := args.filter (!·.startsWith "-")
  forEach (if paths.isEmpty then ["."] else paths) fun path => do
    let place ← placeOf path
    let disk := (← get).machine.disk
    match disk.find? place with
    | none => complain ("ls: cannot access '" ++ path ++ "': No such file or directory") 2
    | some (.file _) =>
      say (path ++ "\n")
      return 0
    | some .folder =>
      let names := ((disk.names place).filter (!·.startsWith ".")).mergeSort (· ≤ ·)
      say (String.join (names.map (· ++ "\n")))
      return 0

/-! ## Lines and numbers -/

/-- The lines of bytes with their ends. -/
def byteLines (bytes : List UInt8) : List (List UInt8) :=
  bytes.foldr (fun b lines =>
    match lines with
    | line :: rest => if b = 10 then [b] :: lines else (b :: line) :: rest
    | [] => [[b]]) []

/-- The part of bytes that `head` and `tail` are told to keep: so many lines, or so many bytes. -/
structure Portion where
  count : Nat := 10
  inBytes : Bool := false

/-- The portion that arguments tell, and the other arguments. -/
def Portion.ofArguments : List String → Portion × List String
  | [] => ({}, [])
  | arg :: rest =>
    let (p, others) := ofArguments rest
    match arg, rest with
    | "-n", n :: rest => ({ count := n.toNat?.getD 0 }, (ofArguments rest).2)
    | "-c", n :: rest => ({ count := n.toNat?.getD 0, inBytes := true }, (ofArguments rest).2)
    | _, _ =>
      match arg.toList with
      | '-' :: 'n' :: digits => ({ count := (ofNumeral? digits).getD 0 }, others)
      | '-' :: 'c' :: digits => ({ count := (ofNumeral? digits).getD 0, inBytes := true }, others)
      | '-' :: digits =>
        match ofNumeral? digits with
        | some count => ({ count }, others)
        | none => (p, arg :: others)
      | _ => (p, arg :: others)

/-- Prints the first or the last portion of files, or of the input. -/
def portion (program : String) (isFirst : Bool) : Utility := fun args => do
  let (p, paths) := Portion.ofArguments args
  let keep {α : Type} (l : List α) : List α :=
    if isFirst then l.take p.count else l.drop (l.length - p.count)
  forEach (if paths.isEmpty then ["-"] else paths) fun path => do
    if isFirst && p.inBytes && path = "/dev/zero" then
      print ⟨(List.replicate p.count 0).toArray⟩
      return 0
    else
      match ← contentOf program path with
      | some content =>
        let bytes := content.toList
        print ⟨(if p.inBytes then keep bytes else (keep (byteLines bytes)).flatten).toArray⟩
        return 0
      | none => return 1

/-- A number with blanks before it up to a width. -/
def aligned (width n : Nat) : String :=
  let digits := numeral n
  String.ofList (List.replicate (width - digits.length) ' ' ++ digits)

/-- Counts lines, words and bytes of files, or of the input; only those that letters tell. -/
def wc : Utility := fun args => do
  let letters := ((args.filter (·.startsWith "-")).map String.toList).flatten
  let paths := args.filter (!·.startsWith "-")
  let kinds := ['l', 'w', 'c'].filter fun kind =>
    letters.isEmpty || letters.contains kind || (kind = 'c' && letters.contains 'm')
  let countsOf (bytes : ByteArray) : List Nat := kinds.map fun kind =>
    if kind = 'l' then bytes.toList.count 10
    else if kind = 'w' then (Text.words isSplit (decode bytes.toList)).length
    else if letters.contains 'm' then (decode bytes.toList).length
    else bytes.size
  let line (width : Nat) (counts : List Nat) (name : String) : String :=
    " ".intercalate (counts.map (aligned width)) ++ name ++ "\n"
  if paths.isEmpty then
    let counts := countsOf (← takeInput)
    say (line (if counts.length = 1 then 1 else 7) counts "")
    return 0
  else
    let mut found : List (String × ByteArray) := []
    for path in paths do
      match ← contentOf "wc" path with
      | some content => found := found ++ [(path, content)]
      | none => pure ()
    let sizes := found.map (·.2.size)
    let width := if kinds.length = 1 && paths.length = 1 then 1
      else (numeral (sizes.foldr (· + ·) 0)).length
    let totals := found.foldl (fun totals (_, bytes) =>
      List.zipWith (· + ·) totals (countsOf bytes)) (kinds.map fun _ => 0)
    for (path, bytes) in found do
      say (line width (countsOf bytes) (" " ++ path))
    if paths.length > 1 then say (line width totals " total")
    return if found.length = paths.length then 0 else 1

/-- The numbers from one to another by a step. -/
def numbers (start finish step : Int) : List Int :=
  if step = 0 then []
  else
    let count := (Int.fdiv (finish - start) step + 1).toNat
    (List.range count).map fun i => start + Int.ofNat i * step

/-- Prints numbers, one on each line. -/
def seq : Utility := fun args => do
  match args.mapM fun a => ofSigned? a.toList with
  | some [finish] => printed (numbers 1 finish 1)
  | some [start, finish] => printed (numbers start finish 1)
  | some [start, step, finish] => printed (numbers start finish step)
  | _ => complain "seq: invalid argument" 1
where
  /-- Prints the numbers. -/
  printed (ns : List Int) : Act Nat := do
    say (String.join (ns.map fun n => decimalInt n ++ "\n"))
    return 0

/-- The nanoseconds of a number of seconds in writing, which may have a fraction and a unit. -/
def nanos? (s : String) : Option Nat := do
  let chars := s.toList
  let whole := chars.takeWhile Char.isDigit
  let (fraction, rest) := match chars.drop whole.length with
    | '.' :: rest => (rest.takeWhile Char.isDigit, rest.dropWhile Char.isDigit)
    | rest => ([], rest)
  let factor ← match rest with
    | [] | ['s'] => some 1
    | ['m'] => some 60
    | ['h'] => some 3600
    | ['d'] => some 86400
    | _ => none
  if whole.isEmpty && fraction.isEmpty then none
  else
    let padded := (fraction ++ List.replicate 9 '0').take 9
    return factor * (Nat.ofDigitChars 10 whole 0 * 1000000000 + Nat.ofDigitChars 10 padded 0)

/-- Lets time pass. -/
def sleep : Utility := fun args => do
  match args.mapM nanos? with
  | some (n :: ns) =>
    pass (ns.foldl (· + ·) n)
    return 0
  | some [] => complain "sleep: missing operand\nTry 'sleep --help' for more information." 1
  | none => complain "sleep: invalid time interval" 1

/-! ## Conditions -/

/-- A condition on the disk or on a text. -/
def unaryTest (operator operand : String) : Act Bool := do
  let entry := (← get).machine.disk.find? (← placeOf operand)
  match operator, entry with
  | "-n", _ => return !operand.isEmpty
  | "-z", _ => return operand.isEmpty
  | "-e", some _ | "-r", some _ | "-w", some _ => return true
  | "-f", some (.file _) => return true
  | "-d", some .folder => return true
  | "-s", some (.file content) => return content.size > 0
  | _, _ => return false

/-- The number that an operand of a condition is; what is none ends the test with a complaint. -/
def operand (s : String) : ExceptT String Act Int :=
  match ofSigned? (trim s.toList) with
  | some n => return n
  | none => throw s

/-- A condition on two texts or numbers. -/
def binaryTest (operator left right : String) : ExceptT String Act Bool := do
  let compared (holds : Int → Int → Bool) : ExceptT String Act Bool := do
    let a ← operand left
    let b ← operand right
    return holds a b
  match operator with
  | "=" | "==" => return left = right
  | "!=" => return left ≠ right
  | "-eq" => compared (· = ·)
  | "-ne" => compared (· ≠ ·)
  | "-lt" => compared (· < ·)
  | "-le" => compared (· ≤ ·)
  | "-gt" => compared (· > ·)
  | "-ge" => compared (· ≥ ·)
  | _ => return false

/-- Whether a condition holds. -/
def condition : List String → ExceptT String Act Bool
  | [] => return false
  | [s] => return !s.isEmpty
  | ["!", s] => return s.isEmpty
  | [operator, operand] => unaryTest operator operand
  | [left, operator, right] =>
    if left = "!" then do return !(← unaryTest operator right)
    else binaryTest operator left right
  | "!" :: rest => do return !(← condition rest)
  | left :: operator :: right :: "-a" :: rest => do
    let a ← binaryTest operator left right
    let b ← condition rest
    return a && b
  | left :: operator :: right :: "-o" :: rest => do
    let a ← binaryTest operator left right
    let b ← condition rest
    return a || b
  | _ => return false

/-- Ends with success if a condition holds; complains in the name of the program. -/
def test (program : String) : Utility := fun args => do
  match ← (condition args).run with
  | .ok holds => return if holds then 0 else 1
  | .error s => object (program ++ ": Illegal number: " ++ s) 2

/-- Ends with success if a condition before a closing bracket holds. -/
def bracketTest : Utility := fun args => do
  if args.getLast? = some "]" then test "[" args.dropLast
  else object "[: missing ]" 2

/-! ## Names -/

/-- Prints the last name of a path, without a given ending. -/
def basename : Utility := fun args => do
  match args with
  | [] => complain "basename: missing operand" 1
  | path :: rest =>
    let name := ((splitOn '/' (trimEndBy (· = '/') path.toList)).getLast?).getD []
    let ending := (rest.head?.getD "").toList
    let name := ((before? ending name).filter (!·.isEmpty)).getD name
    say ((if name.isEmpty && path.startsWith "/" then "/" else String.ofList name) ++ "\n")
    return 0

/-- Prints the path without its last name. -/
def dirname : Utility := fun args => do
  match args with
  | [] => complain "dirname: missing operand" 1
  | path :: _ =>
    let names := (splitOn '/' (trimEndBy (· = '/') path.toList)).dropLast
    let folder := String.ofList (List.intercalate ['/'] names)
    say ((if folder.isEmpty then (if path.startsWith "/" then "/" else ".") else folder) ++ "\n")
    return 0

/-- Prints the folder that paths are seen from. -/
def pwd : Utility := fun _ => do
  say (Place.path (← get).folder ++ "\n")
  return 0

/-- The programs by their names; `isOwn` tells those that the interpreter has itself. -/
def utility? (isOwn : Bool) (name : String) : Option Utility :=
  match name with
  | "true" => some fun _ => return 0
  | "false" => some fun _ => return 1
  | "echo" => some fun args => do
    print (echoed isOwn args)
    return 0
  | "printf" => some fun args => do
    match args with
    | [] => object "printf: usage: printf format [arg ...]" 2
    | format :: args =>
      let (bytes, complaints) := formatted format.toList (args.length + 1) args
      print bytes
      forEach complaints fun complaint => object ("printf: " ++ complaint) 1
  | "cat" => some cat
  | "mkdir" => some mkdir
  | "cp" => some (copy "cp" false)
  | "mv" => some (copy "mv" true)
  | "rm" => some rm
  | "touch" => some touch
  | "ls" => some ls
  | "head" => some (portion "head" true)
  | "tail" => some (portion "tail" false)
  | "wc" => some wc
  | "seq" => some seq
  | "sleep" => some sleep
  | "test" => some (test "test")
  | "[" => some bracketTest
  | "basename" => some basename
  | "dirname" => some dirname
  | "pwd" => some pwd
  | _ => none

end Steward.Shell
