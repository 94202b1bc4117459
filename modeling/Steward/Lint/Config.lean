import Steward.Json.Record
import Steward.Lint.Diagnostic
import Steward.Text.Regex

/-!
# Lint configurations

Which files are not linted, and how grave the findings of each rule are.

In the pattern of a path, `**` stands for any text, `**/` for nothing or any text that ends in a
slash, `*` and `?` for text within a segment, and every other character for itself. A pattern
without a slash may match at any depth, and a pattern that matches a directory matches everything
below it. Patterns are turned into regular expressions.

* `Glob.regex?`: the regular expression of a pattern.
* `Glob.normal`: how paths are written when they are matched.
* `Settings.toConfig`: the configuration of settings, whose patterns are all compiled.
-/

namespace Steward.Json

/-- A list of fields of any names, each with a value of one kind. -/
def Decoder.fields {α : Type} (d : Decoder α) : Decoder (List (String × α)) := fun v =>
  match v with
  | .object fields => fields.mapM fun (name, v) => (d v).map (name, ·)
  | _ => .error .form

end Steward.Json

namespace Steward.Lint

open Json (Decoder Fields)

/-! ## Path patterns -/

/-- A text without the words `./` at its start. -/
def dropHere : List Char → List Char
  | '.' :: '/' :: rest => dropHere rest
  | s => s

namespace Glob

/-- `(?:.*/)?`, for nothing or any text that ends in a slash. -/
def directories : List Char := ['(', '?', ':', '.', '*', '/', ')', '?']

/-- `(?:/.*)?`, for nothing or any text that starts with a slash. -/
def below : List Char := ['(', '?', ':', '/', '.', '*', ')', '?']

/-- The written expressions of the parts of a pattern, read from left to right. -/
def body : List Char → List Char
  | [] => []
  | '*' :: '*' :: '/' :: rest => directories ++ body rest
  | '*' :: '*' :: rest => '.' :: '*' :: body rest
  | '*' :: rest => '[' :: '^' :: '/' :: ']' :: '*' :: body rest
  | '?' :: rest => '[' :: '^' :: '/' :: ']' :: body rest
  | c :: rest => Text.Regex.literal c ++ body rest

/-- The written expression of a pattern. -/
def expression (glob : List Char) : List Char :=
  '^' :: ((if glob.contains '/' then [] else directories) ++ body glob ++ below ++ ['$'])

/-- The regular expression of a written pattern. -/
def regex? (written : String) : Option Text.Regex :=
  Text.Regex.ofText? (expression (dropHere written.toList))

/-- A path with slashes between its segments and no `./` at its start. -/
def normal (path : String) : List Char :=
  dropHere (path.toList.map fun c => if c = '\\' then '/' else c)

end Glob

/-! ## Configurations -/

/-- A pattern of files that are not linted, with its regular expression. -/
structure Ignored where
  written : String
  regex : Text.Regex
  regex?_written : Glob.regex? written = some regex
deriving DecidableEq, Repr

/-- A lint configuration. -/
structure Config where
  /-- The patterns of files that are not linted. -/
  ignored : List Ignored := []
  /-- The severities of rules, the one that counts first. -/
  severities : List (String × Severity) := []
deriving DecidableEq, Repr

/-- A lint configuration as it is written. -/
structure Settings where
  /-- The patterns of files that are not linted. -/
  ignored : List String := []
  /-- The severities of rules, the one that counts first. -/
  severities : List (String × Severity) := []
deriving DecidableEq, Repr

/-- Why a configuration was refused. -/
inductive Config.Refusal where
  | unreadable
  /-- No expression is read from the pattern. -/
  | pattern (written : String)
deriving DecidableEq, Repr

/-- The kind of a refusal. -/
def Config.Refusal.kind : Refusal → String
  | unreadable => "InvalidConfig"
  | pattern _ => "InvalidGlob"

/-- The text shown for a refusal, without what readers of documents and expressions say. -/
def Config.Refusal.message : Refusal → String
  | unreadable => "Invalid lint configuration"
  | pattern written => "Invalid ignore pattern " ++ written

instance : Json.Encode Config.Refusal := ⟨fun e => .ofFault e.kind none⟩

namespace Config

/-- The configuration with one more pattern of files that are not linted. -/
def withIgnored (c : Config) (written : String) : Except Refusal Config :=
  match h : Glob.regex? written with
  | some regex => .ok { c with ignored := c.ignored ++ [⟨written, regex, h⟩] }
  | none => .error (.pattern written)

/-- The configuration with a severity for one rule. -/
def withRule (c : Config) (rule : String) (severity : Severity) : Config :=
  { c with severities := (rule, severity) :: c.severities }

/-- Whether a file is not linted. -/
def ignores (c : Config) (path : String) : Bool :=
  c.ignored.any (·.regex.isMatch (Glob.normal path))

/-- The severity of a rule, or `default` where the configuration does not say. -/
def severity (c : Config) (rule : String) (default : Severity) : Severity :=
  (c.severities.lookup rule).getD default

end Config

namespace Settings

/-- Reads settings; of several severities for one rule the last counts. -/
def decode : Decoder Settings :=
  ((fun ignored severities => ⟨ignored, severities.reverse⟩) <$>
    .defaulted "ignore" (Decoder.list Decoder.string) [] <*>
    .defaulted "rules" (Decoder.fields (Decoder.name Severity.ofName?)) [] : Fields _).read

/-- The configuration of settings. -/
def toConfig (s : Settings) : Except Config.Refusal Config :=
  s.ignored.foldlM Config.withIgnored { severities := s.severities }

end Settings

/-- The configuration of a document. -/
def Config.ofJson (v : Json) : Except Config.Refusal Config :=
  match Settings.decode v with
  | .ok s => s.toConfig
  | .error _ => .error .unreadable

end Steward.Lint
