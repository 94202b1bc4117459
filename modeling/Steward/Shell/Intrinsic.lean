import Steward.Shell.Arithmetic
import Steward.Shell.Filter

/-!
# What the interpreter does itself

It opens streams, sends and takes signals, and keeps variables, arguments, options and its folder.
-/

namespace Steward.Shell

open Text

/-! ## Streams -/

/-- Opens a redirection to or from a file: the state after it, or a complaint. -/
def openFile (stream : Nat) (mode : Mode) (path : String) (s : State) : Except String State :=
  let place := Place.of s.folder path
  let sunk (sink : Sink) (s : State) : State :=
    if stream = 2 then { s with errSink := sink } else { s with outSink := sink }
  if mode = .read then
    if place = ["dev", "null"] then .ok { s with input := .empty }
    else
      match s.machine.disk.content? place with
      | some input => .ok { s with input }
      | none => .error ("cannot open " ++ path ++ ": No such file")
  else if place = ["dev", "null"] then .ok (sunk .nowhere s)
  else if place = ["dev", "stdout"] then .ok (sunk s.outSink s)
  else if place = ["dev", "stderr"] then .ok (sunk s.errSink s)
  else
    let content := if mode = .append then (s.machine.disk.content? place).getD .empty else .empty
    match s.machine.disk.write? place content with
    | some disk => .ok (sunk (.file place) { s with machine := { s.machine with disk } })
    | none =>
      let cause :=
        if s.machine.disk.isFolder place then "Is a directory" else "Directory nonexistent"
      .error ("cannot create " ++ path ++ ": " ++ cause)

/-- Points one stream to where another goes: the state after it, or a complaint. -/
def joinStream (stream : Nat) (target : String) (s : State) : Except String State :=
  match stream, target with
  | 1, "2" => .ok { s with outSink := s.errSink }
  | 2, "1" => .ok { s with errSink := s.outSink }
  | 1, "-" => .ok { s with outSink := .nowhere }
  | 2, "-" => .ok { s with errSink := .nowhere }
  | 0, "-" => .ok { s with input := .empty }
  | _, "0" | _, "1" | _, "2" | _, "-" => .ok s
  | _, _ => .error (target ++ ": Bad file descriptor")

/-! ## Signals -/

/-- The signals by their numbers. -/
def signals : List (Nat × String) :=
  [(1, "HUP"), (2, "INT"), (3, "QUIT"), (4, "ILL"), (5, "TRAP"), (6, "ABRT"), (7, "BUS"),
    (8, "FPE"), (9, "KILL"), (10, "USR1"), (11, "SEGV"), (12, "USR2"), (13, "PIPE"),
    (14, "ALRM"), (15, "TERM"), (17, "CHLD"), (18, "CONT"), (19, "STOP"), (23, "URG"),
    (28, "WINCH")]

/-- The number of a signal that is named or numbered. -/
def signalNumber (name : String) : Nat :=
  match ofNumeral? name.toList with
  | some n => n
  | none => ((signals.find? (·.2 = name)).map (·.1)).getD 15

/-- The signals that end no process. -/
def isIgnoredSignal (n : Nat) : Bool := n = 0 || n = 17 || n = 18 || n = 23 || n = 28

/-- What is said of a program that a signal stopped. -/
def signalText (n : Nat) : Option String :=
  match n with
  | 1 => some "Hangup"
  | 3 => some "Quit"
  | 6 => some "Aborted"
  | 9 => some "Killed"
  | 11 => some "Segmentation fault"
  | 15 => some "Terminated"
  | _ => none

/-- Sends a signal. -/
def kill : Utility := fun args => do
  let (name, processes) := match args with
    | "-s" :: name :: rest => (name, rest)
    | first :: rest =>
      match first.toList with
      | '-' :: name => (String.ofList name, rest)
      | _ => ("TERM", args)
    | [] => ("TERM", [])
  let name := String.ofList ((after? "SIG".toList name.toList).getD name.toList)
  if processes = [processNumber] then
    let n := signalNumber name
    if isIgnoredSignal n then return 0 else throw (.signal n)
  else object "kill: No such process\n" 1

/-! ## Variables, options and arguments -/

/-- Takes a line into variables, the last of which gets all that is left. -/
def readVariables : Utility := fun args => do
  let names := args.filter (· ≠ "-r")
  let (line, ended) ← takeLine
  fill names ((decode line.toList).dropWhile isSplit)
  return if ended then 0 else 1
where
  /-- Gives variables their words. -/
  fill : List String → List Char → Act Unit
    | [], _ => return ()
    | [name], text => assign name (String.ofList (trimEndBy isSplit text))
    | name :: rest, text => do
      assign name (String.ofList (text.takeWhile (!isSplit ·)))
      fill rest ((text.dropWhile (!isSplit ·)).dropWhile isSplit)

/-- Makes variables seen by programs, which may be given values on the way. -/
def share : Utility := fun args =>
  forEach args fun arg => do
    let name := match cut? ['='] arg.toList with
      | some (name, _) => String.ofList name
      | none => arg
    match cut? ['='] arg.toList with
    | some (_, value) => assign name (String.ofList value)
    | none => if ((← get).lookup? name).isNone then assign name ""
    modify fun s => { s with vars := s.vars.map fun v =>
      if v.name = name then { v with isShared := true } else v }
    return 0

/-- Makes variables whose old values come back at the end of the named command. -/
def makeLocal : Utility := fun args =>
  forEach args fun arg => do
    let (name, value) := match cut? ['='] arg.toList with
      | some (name, value) => (String.ofList name, some (String.ofList value))
      | none => (arg, none)
    modify fun s => { s with locals := name :: s.locals }
    match value with
    | some value => assign name value
    | none => pure ()
    return 0

/-- Sets options and arguments. -/
def setOptions : Utility := fun args => do
  match args with
  | "--" :: rest => modify fun s => { s with arguments := rest }
  | first :: _ =>
    match first.toList with
    | '-' :: letters => if letters.contains 'e' then modify fun s => { s with isStrict := true }
    | '+' :: letters => if letters.contains 'e' then modify fun s => { s with isStrict := false }
    | _ => modify fun s => { s with arguments := args }
  | [] => pure ()
  return 0

/-! ## Ends -/

/-- Ends the script. -/
def leaveScript : Utility := fun args => do
  match args with
  | [] => throw (.exit (← get).status)
  | code :: _ =>
    match ofNumeral? code.toList with
    | some n => throw (.exit (n % 256))
    | none =>
      let _ ← object ("exit: Illegal number: " ++ code) 2
      throw (.exit 2)

/-- Ends a named command. -/
def leaveCommand : Utility := fun args => do
  let code := (args.head?.bind fun code => ofNumeral? code.toList).getD (← get).status
  throw (.back (code % 256))

/-- Drops arguments from the front, as many as told. -/
def shift : Utility := fun args => do
  let n := (args.head?.bind fun n => ofNumeral? n.toList).getD 1
  if n ≤ (← get).arguments.length then
    modify fun s => { s with arguments := s.arguments.drop n }
    return 0
  else
    let _ ← object "shift: can't shift that many" 2
    throw (.exit 2)

/-- Takes note of the script to run at the end. -/
def trap : Utility := fun args => do
  match args with
  | action :: signals =>
    if signals.contains "EXIT" || signals.contains "0" then
      modify fun s => { s with atEnd := if action = "-" then none else some action }
  | [] => pure ()
  return 0

/-- Goes to another folder. -/
def changeFolder : Utility := fun args => do
  let path := args.head?.getD "/"
  let place ← placeOf path
  if (← get).machine.disk.isFolder place then
    modify fun s => { s with folder := place }
    return 0
  else object ("cd: can't cd to " ++ path) 2

/-- What the interpreter does itself, by name. -/
def ownUtility? (name : String) : Option Utility :=
  match name with
  | ":" => some fun _ => return 0
  | "wait" | "umask" => some fun _ => return 0
  | "exit" => some leaveScript
  | "return" => some leaveCommand
  | "trap" => some trap
  | "cd" => some changeFolder
  | "export" => some share
  | "unset" => some fun args => do
    modify fun s => { s with vars := s.vars.filter fun v => !args.contains v.name }
    return 0
  | "set" => some setOptions
  | "shift" => some shift
  | "local" => some makeLocal
  | "read" => some readVariables
  | "kill" => some kill
  | "break" => some fun args => throw (.leave ((args.head?.bind String.toNat?).getD 1))
  | "continue" => some fun args => throw (.next ((args.head?.bind String.toNat?).getD 1))
  | _ => (utility? true name).orElse fun _ => filter? name

/-- The names of what the interpreter does itself. -/
def ownNames : List String :=
  [":", "wait", "umask", "exit", "return", "trap", "cd", "export", "unset", "set", "shift", "local",
    "read", "kill", "break", "continue", "true", "false", "echo", "printf", "test", "[", "pwd",
    "eval", "exec", "command", "."]

/-- What a name means as that of a program, if it means one. -/
def meaning? (name : String) : Option String :=
  if ownNames.contains name then some name
  else if name = "sh" || name = "env" || (ownUtility? name).isSome then some ("/usr/bin/" ++ name)
  else none

/-- Says what names mean. -/
def tellMeanings : Utility := fun args =>
  forEach args fun name => do
    match if ((← get).commands.lookup name).isSome then some name else meaning? name with
    | some meaning =>
      say (meaning ++ "\n")
      return 0
    | none => return 127

/-! ## Processes -/

/-- Runs a part of a script as a process of its own: its end is its code, and what it changes but
the disk and the input is lost. -/
def isolated (act : Act Unit) : Act Unit := do
  let s ← get
  set { s with atEnd := none }
  let status ← tryCatch (do
      act
      return (← get).status) fun e =>
    match e with
    | .exit code | .back code => return code
    | .leave _ | .next _ => return 0
    | e => throw e
  modify fun t => { s with machine := t.machine, input := t.input, out := t.out, err := t.err
                           pipes := t.pipes, status }

/-- Runs a program apart from the script: a signal that stops it leaves the script alone, which says
so. -/
def asChild (act : Act Nat) : Act Nat := do
  let s ← get
  tryCatch act fun e =>
    match e with
    | .signal n => do
      modify fun t => { s with machine := t.machine, input := t.input, out := t.out, err := t.err
                               pipes := t.pipes }
      match signalText n with
      | some text => complain text (128 + n)
      | none => return 128 + n
    | e => throw e

/-- Runs a script up to its end, wherever it comes. -/
def ended (act : Act Unit) : Act Unit :=
  tryCatch act fun e =>
    match e with
    | .exit code | .back code => modify fun s => { s with status := code }
    | e => throw e

/-- Takes note of how a command ended; where it is not looked at, a failure may end the script. -/
def settle (tested : Bool) (code : Nat) : Act Unit := do
  modify fun s => { s with status := code }
  if (← get).isStrict && !tested && code ≠ 0 then throw (.exit code)

/-- The value of a formula, which may change variables. -/
def calculate (text : String) : Act String := do
  let s ← get
  let values := s.vars.map fun v => (v.name, v.value)
  match (do (← Formula.read text).eval values) with
  | .ok (n, after) =>
    let changes := (after.take (after.length - values.length)).reverse
    changes.forM fun (name, value) => assign name value
    return decimalInt n.toInt
  | .error fault =>
    let _ ← object (fault.message text) 2
    throw (.exit 2)

/-- The name of a program without the folder that programs lie in. -/
def bareName (name : String) : String :=
  let chars := name.toList
  String.ofList (((after? "/bin/".toList chars).orElse fun _ =>
    after? "/usr/bin/".toList chars).getD chars)

end Steward.Shell
