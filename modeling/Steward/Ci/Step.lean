import Steward.Exit
import Steward.Secret

/-!
# Steps

One command of a pipeline, and what it leaves behind.
-/

namespace Steward.Ci

open Json (field)

/-- A program to run. -/
structure Step where
  /-- What reports call it. -/
  name : String
  program : String
  args : List String := []
  directory : String
  env : List (String × String) := []
  /-- What the program reads, and nothing else shows. -/
  input : Option Secret := none
deriving DecidableEq

/-- What a program leaves behind when it has ended. -/
structure Step.Output where
  exit : Exit := .code 0
  out : String := ""
  err : String := ""
deriving DecidableEq, Repr

namespace Step

/-- The program and its arguments on one line. -/
def commandLine (s : Step) : String := " ".intercalate (s.program :: s.args)

/-- What was done, for a record of it. -/
instance : Json.Encode Step :=
  ⟨fun s => .object [field "name" s.name, field "command" s.commandLine,
    field "args" s.args.length, field "cwd" s.directory, field "env" s.env,
    field "stdin" (s.input.map fun i => [i.value, toString i])]⟩

namespace Output

/-- Whether a program ended with success. -/
def passed (o : Output) : Bool := o.exit.passed

instance : Json.Encode Output :=
  ⟨fun o => .object [field "code" o.exit, field "success" o.passed, field "stdout" o.out,
    field "stderr" o.err]⟩

end Output

end Step

end Steward.Ci
