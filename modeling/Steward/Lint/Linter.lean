import Steward.Lint.Config
import Steward.Lint.Walk

/-!
# Linting

The rules that are not off go through a tree together. The findings are then listed by line and
column, those at one place in the order in which they were made.

* `Linter.walk`: how the rules go through a tree.
* `Linter.lint`: the findings in a document.
* `Linter.lint?`: the same, unless an addition overflows on the way.
-/

namespace Steward.Lint

/-- Rules and a configuration. -/
structure Linter where
  rules : List Rule
  config : Config := {}

namespace Linter

/-- The severity of a rule. -/
def severity (l : Linter) (r : Rule) : Severity :=
  l.config.severity r.about.name r.about.kind.severity

/-- The rules that are not off, with their severities. -/
def active (l : Linter) : List (Rule × Severity) :=
  (l.rules.map fun r => (r, l.severity r)).filter fun (_, s) => s ≠ .off

/-- The walk through a tree. -/
def walk (l : Linter) (file : File) (t : Tree) : Walk :=
  Walk.through l.active t { context := { file } }

/-- What the handlers of all rules do in a tree, in order. -/
def calls (l : Linter) (file : File) (t : Tree) : List Call := (l.walk file t).calls.toList

/-- The findings in a tree. -/
def lintTree (l : Linter) (file : File) (t : Tree) : List Diagnostic :=
  (l.walk file t).context.findings.toList.mergeSort Diagnostic.before

/-- The tree of a document whose root is a program. -/
def program? (document : Json) : Option Tree :=
  (Tree.ofJson? [] document).filter (·.node.type = "Program")

/-- Why a file was not linted. -/
inductive Refusal where
  | unreadable
  | notAProgram
deriving DecidableEq, Repr

/-- What is said of a document that holds no program. -/
def notAProgram : String := "AST root is not a Program node"

/-- The kind of a refusal. -/
def Refusal.kind : Refusal → String
  | unreadable => "InvalidAst"
  | notAProgram => "NotAProgram"

instance : Json.Encode Refusal where
  encode
    | .unreadable => .ofFault Refusal.unreadable.kind none
    | .notAProgram => .ofFault Refusal.notAProgram.kind Linter.notAProgram

/-- The findings in a document; a file that the configuration ignores has none. -/
def lint (l : Linter) (file : File) (document : Json) : Except Refusal (List Diagnostic) :=
  if l.config.ignores file.name then .ok []
  else
    match program? document with
    | some t => .ok (l.lintTree file t)
    | none => .error .notAProgram

/-- The findings in a document that is given as a text. -/
def lintText (l : Linter) (file : File) (document : Option Json) :
    Except Refusal (List Diagnostic) :=
  if l.config.ignores file.name then .ok []
  else
    match document with
    | some document => l.lint file document
    | none => .error .unreadable

/-- Whether an addition overflows while a file is linted. -/
def overflows (l : Linter) (file : File) (document : Json) : Bool :=
  !l.config.ignores file.name &&
    (program? document).any fun t => (l.calls file t).any (·.overflow)

/-- The findings in a document, with checks for overflow: none where they panic. -/
def lint? (l : Linter) (file : File) (document : Json) :
    Option (Except Refusal (List Diagnostic)) :=
  if l.overflows file document then none else some (l.lint file document)

/-- The findings in a document that is given as a text, with checks for overflow. -/
def lintText? (l : Linter) (file : File) (document : Option Json) :
    Option (Except Refusal (List Diagnostic)) :=
  if document.any (l.overflows file) then none else some (l.lintText file document)

end Linter

end Steward.Lint
