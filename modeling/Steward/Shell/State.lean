import Steward.Exit
import Steward.Shell.Disk
import Steward.Shell.Script
import Steward.Text.Utf8

/-!
# Running scripts

What a running script has at hand: the disk, a clock, its variables and arguments, and its streams.
Time passes only where a script sleeps; a script that would go on beyond its deadline is overdue.
-/

namespace Steward.Shell

/-- Where a stream goes. -/
inductive Sink where
  | out
  | err
  /-- To the command that reads from a pipe. -/
  | pipe (level : Nat)
  | file (place : Place)
  | nowhere
deriving DecidableEq

/-- Why a script does not go on with its next command. -/
inductive Stop where
  | exit (code : Nat)
  /-- The end of a named command, or of a script outside of one. -/
  | back (code : Nat)
  | signal (number : Nat)
  | overdue
  /-- So many loops are left. -/
  | leave (loops : Nat)
  /-- So many loops less one are left, and the next goes on. -/
  | next (loops : Nat)
deriving DecidableEq

/-- A variable. -/
structure Variable where
  name : String
  value : String
  /-- Whether programs that the script starts see it. -/
  isShared : Bool
deriving DecidableEq

/-- A disk and a clock, in nanoseconds. -/
structure Machine where
  disk : Disk
  clock : Nat := 0

/-- What a running script has at hand. -/
structure State where
  machine : Machine
  deadline : Option Nat
  vars : List Variable
  /-- What the script is called in its own messages. -/
  name : String
  arguments : List String
  /-- The line breaks of the script. -/
  breaks : Nat
  /-- The line that is being run. -/
  line : Nat := 1
  folder : Place
  input : ByteArray
  outSink : Sink := .out
  errSink : Sink := .err
  out : ByteArray := .empty
  err : ByteArray := .empty
  pipes : List ByteArray := []
  /-- How the last command ended. -/
  status : Nat := 0
  /-- Whether the script ends with the first command that fails. -/
  isStrict : Bool := false
  /-- Commands that the script has given names. -/
  commands : List (String × Command) := []
  /-- Variables that get their old values back at the end of a named command. -/
  locals : List String := []
  /-- The script to run at the end. -/
  atEnd : Option String := none

/-- A part of a run. -/
abbrev Act := ExceptT Stop (StateM State)

/-- The number of the process that runs a script. -/
def processNumber : String := "4242"

/-- The blanks at which values are split into words. -/
def isSplit (c : Char) : Bool := c = ' ' || c = '\t' || c = '\n'

/-! ## Streams -/

/-- Writes bytes where a stream goes. -/
def emit (sink : Sink) (bytes : ByteArray) : Act Unit :=
  modify fun s =>
    match sink with
    | .out => { s with out := s.out ++ bytes }
    | .err => { s with err := s.err ++ bytes }
    | .pipe level => { s with pipes := s.pipes.modify level (· ++ bytes) }
    | .file place =>
      let old := (s.machine.disk.content? place).getD .empty
      let disk := s.machine.disk.put place (.file (old ++ bytes))
      { s with machine := { s.machine with disk } }
    | .nowhere => s

/-- Prints bytes. -/
def print (bytes : ByteArray) : Act Unit := do emit (← get).outSink bytes

/-- Prints a text. -/
def say (text : String) : Act Unit := print text.toUTF8

/-- Prints a line where complaints go, and fails. -/
def complain (line : String) (code : Nat) : Act Nat := do
  emit (← get).errSink (line ++ "\n").toUTF8
  return code

/-- Complains in the name of the script, with the line that is being run. -/
def object (text : String) (code : Nat) : Act Nat := do
  let s ← get
  complain (s.name ++ ": " ++ Text.decimal s.line ++ ": " ++ text) code

/-- Takes all that is left to read. -/
def takeInput : Act ByteArray := do
  let s ← get
  set { s with input := .empty }
  return s.input

/-- Takes one line to read, without its end; also says whether its end was there. -/
def takeLine : Act (ByteArray × Bool) := do
  let s ← get
  let bytes := s.input
  match bytes.data.findIdx? (· = 10) with
  | some i =>
    set { s with input := bytes.extract (i + 1) bytes.size }
    return (bytes.extract 0 i, true)
  | none =>
    set { s with input := .empty }
    return (bytes, false)

/-- What an action prints, which goes nowhere else. -/
def captured (act : Act Unit) : Act ByteArray := do
  let s ← get
  let level := s.pipes.length
  set { s with pipes := s.pipes ++ [ByteArray.empty], outSink := .pipe level }
  let restore : Act ByteArray := do
    let t ← get
    set { t with pipes := t.pipes.take level, outSink := s.outSink }
    return (t.pipes[level]?).getD ByteArray.empty
  tryCatch act fun e => do
    let _ ← restore
    throw e
  restore

/-! ## Time -/

/-- Lets time pass, up to the deadline. -/
def pass (nanos : Nat) : Act Unit := do
  let s ← get
  let clock := s.machine.clock + nanos
  match s.deadline with
  | some deadline =>
    if clock > deadline then
      set { s with machine := { s.machine with clock := deadline } }
      throw .overdue
    else set { s with machine := { s.machine with clock } }
  | none => set { s with machine := { s.machine with clock } }

/-! ## Variables -/

/-- The value of a variable, if it has one. -/
def State.lookup? (s : State) (name : String) : Option String :=
  (s.vars.find? (·.name = name)).map (·.value)

/-- The variables with one given a value. -/
def setVariable (name value : String) : List Variable → List Variable
  | [] => [⟨name, value, false⟩]
  | v :: rest =>
    if v.name = name then { v with value } :: rest else v :: setVariable name value rest

/-- Gives a variable a value. -/
def assign (name value : String) : Act Unit :=
  modify fun s => { s with vars := setVariable name value s.vars }

/-- The value that a parameter stands for, if it has one. -/
def State.value? (s : State) (name : String) : Option String :=
  match name with
  | "*" | "@" => some (" ".intercalate s.arguments)
  | "#" => some (Text.decimal s.arguments.length)
  | "?" => some (Text.decimal s.status)
  | "$" => some processNumber
  | "!" | "-" => none
  | "0" => some s.name
  | _ =>
    match Text.ofNumeral? name.toList with
    | some i => s.arguments[i - 1]?
    | none => s.lookup? name

end Steward.Shell
