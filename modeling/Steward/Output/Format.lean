import Steward.Output.Cargo
import Steward.Output.CargoTest
import Steward.Output.Eslint
import Steward.Output.Rustc
import Steward.Output.StackTrace
import Steward.Output.Tsc

/-!
# Output formats

The tools whose output is turned into annotations.

* `Format.ofName?_name`: a format is found by its name.
-/

namespace Steward.Output

/-- A format of output. -/
inductive Format where
  | eslint
  | typescript
  | stackTrace
  | rust
  | cargoJson
  | cargoFmt
  | cargoTest
deriving DecidableEq, Repr

namespace Format

/-- The formats. -/
def all : List Format := [eslint, typescript, stackTrace, rust, cargoJson, cargoFmt, cargoTest]

/-- The name by which a format is asked for. -/
def name : Format → String
  | eslint => "eslint"
  | typescript => "typescript"
  | stackTrace => "stack-trace"
  | rust => "rust"
  | cargoJson => "cargo-json"
  | cargoFmt => "cargo-fmt"
  | cargoTest => "cargo-test"

/-- The format of a name. -/
def ofName? (name : String) : Option Format := all.find? (·.name = name)

@[simp] theorem ofName?_name (f : Format) : ofName? f.name = some f := by
  cases f <;> decide

/-- The annotations of output, which one format gives with paths relative to `root`; `none` where it
is no document of that format. -/
def read? (f : Format) (root : Option String) (output : String) : Option (List Annotation) :=
  match f with
  | eslint => Eslint.read? root output
  | typescript => some (Tsc.reader.read output)
  | stackTrace => some (StackTrace.reader.read output)
  | rust => some (Rustc.reader.read output)
  | cargoJson => some (CargoMessage.reader.read output)
  | cargoFmt => some (CargoFormat.reader.read output)
  | cargoTest => some (CargoTest.reader.read output)

end Format

end Steward.Output
