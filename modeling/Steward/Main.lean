import Steward.Cli.Invocation
import Steward.Cli.Session

/-!
# The program

Takes the files that the command line names, the variables and the input from outside, carries out
what is asked for in memory, prints the outcome, and writes back what has changed.
-/

namespace Steward.Main

open Cli Shell

/-- The bytes of a file, if it can be read. -/
def readFile (path : String) : IO (Option ByteArray) := do
  try return some (← IO.FS.readBinFile path) catch _ => return none

/-- The rest of a stream. -/
partial def readRest (stream : IO.FS.Stream) (before : ByteArray) : IO ByteArray := do
  let bytes ← stream.read 65536
  if bytes.isEmpty then return before else readRest stream (before ++ bytes)

/-- The variables in the form in which the system keeps them: each ends with a zero. -/
def variablesOf (bytes : ByteArray) : List (String × String) :=
  (Text.splitOn '\x00' (Text.decode bytes.toList)).filterMap fun entry =>
    (Text.cut? ['='] entry).map fun (name, value) => (String.ofList name, String.ofList value)

/-- The files that an action may read or write. -/
def filesOf : Action → List String
  | .lint tree source _ _ _ => [tree, source]
  | .run .. | .list | .annotate .. => []

/-- Carries out an invocation; gives the code that the program ends with. -/
def carryOut (i : Invocation) : IO UInt32 := do
  let home : Place := ["home"]
  let paths := filesOf i.action ++ [i.config.getD Session.defaultConfig]
  let files ← paths.filterMapM fun path => do
    return (← readFile path).map fun bytes => (Place.of home path, bytes)
  let disk := files.foldl (fun (d : Disk) (place, bytes) => d.put place (.file bytes))
    (Disk.ofFiles home [])
  let input ← match i.action with
    | .annotate .. => readRest (← IO.getStdin) .empty
    | _ => pure .empty
  let env := variablesOf ((← readFile "/proc/self/environ").getD .empty)
  let r := ({ machine := ⟨disk, 0⟩, folder := home, env, input } : Session).execute i
  IO.print r.printed
  for path in filesOf i.action do
    let place := Place.of home path
    match r.machine.disk.content? place, disk.content? place with
    | some new, some old => if new.toList ≠ old.toList then IO.FS.writeBinFile path new
    | _, _ => pure ()
  match r.verdict with
  | .ok verdict => return UInt32.ofNat verdict.code
  | .error e =>
    IO.eprintln (e.kind ++ ": " ++ e.message)
    return 1

end Steward.Main

/-- The program. -/
def main (words : List String) : IO UInt32 := do
  match Steward.Cli.Invocation.read words with
  | .ok i => Steward.Main.carryOut i
  | .error usage =>
    match usage with
    | .information => IO.print Steward.Cli.Invocation.help
    | .wrong => IO.eprint Steward.Cli.Invocation.help
    return UInt32.ofNat usage.code
