import Steward.Lint.Linter
import Steward.Lint.Rules.Disconnect
import Steward.Lint.Rules.Expressions
import Steward.Lint.Rules.Reported
import Steward.Lint.Rules.Validation

/-!
# The rules at hand

The rules that need no more than the file, and those that show reports on the whole project.
-/

namespace Steward.Lint

/-- The rules that need no more than the file. -/
def fileRules : List Rule :=
  [noTypeAssertions, preferZodValidation, noUseEffect, prismaClientDisconnect,
    requireStructuredLogging]

/-- The rules that show reports on the project at a root. -/
def projectRules (root : String) (knip : Tool.Knip) (jscpd : Tool.Jscpd) : List Rule :=
  [noUnusedExports root knip, noCodeDuplication root jscpd]

namespace Linter

/-- The linter of the rules that need no more than the file. -/
def ofFile (config : Config) : Linter := ⟨fileRules, config⟩

/-- The linter of all rules. -/
def ofProject (config : Config) (root : String) (knip : Tool.Knip) (jscpd : Tool.Jscpd) : Linter :=
  ⟨fileRules ++ projectRules root knip jscpd, config⟩

end Linter

end Steward.Lint
