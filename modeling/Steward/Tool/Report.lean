import Steward.Json.Record
import Steward.Text.Search

/-!
# Reports on a project

What the tools that look at a whole project report: knip the files that nothing imports and the
exports that nothing uses, jscpd the blocks of code that stand twice. The tools name files relative
to the root of the project; the linter may see a file by a relative or an absolute path, with
slashes of either kind.

* `isSameFile`: whether a path in a report names the file that is linted.
-/

namespace Steward.Tool

open Json (Decoder Fields)
open Text

/-! ## Paths -/

/-- A path with slashes between its segments and without one `./` at its start. -/
def normalPath (path : String) : List Char :=
  let path := path.toList.map fun c => if c = '\\' then '/' else c
  (after? ['.', '/'] path).getD path

/-- A path without slashes at its end. -/
def dropSlashes (path : List Char) : List Char := (path.reverse.dropWhile (· = '/')).reverse

/-- Whether a path in the report on a project names a file: as it stands, below the root, or at the
end of the file's path. -/
def isSameFile (reported file root : String) : Bool :=
  let reported := normalPath reported
  let file := normalPath file
  if reported.isEmpty then false
  else
    file = reported || file = dropSlashes (normalPath root) ++ '/' :: reported ||
      endsWith ('/' :: reported) file

/-! ## Knip -/

/-- A name that a report is about, and where it stands. -/
structure Knip.Symbol where
  name : String
  line : Option UInt32
  column : Option UInt32
deriving DecidableEq, Repr

/-- What a report says about one file. -/
structure Knip.Issues where
  file : String
  dependencies : List Knip.Symbol
  devDependencies : List Knip.Symbol
  unlisted : List Knip.Symbol
  exports : List Knip.Symbol
  types : List Knip.Symbol
deriving DecidableEq, Repr

/-- A report on a project. -/
structure Knip where
  /-- The files that nothing imports. -/
  files : List String := []
  issues : List Knip.Issues := []
deriving DecidableEq, Repr

namespace Knip

/-- Reads a name. -/
def Symbol.decode : Decoder Symbol :=
  (mk <$> .required "name" Decoder.string <*>
    .defaulted "line" (Decoder.option Decoder.uint32) none <*>
    .defaulted "col" (Decoder.option Decoder.uint32) none : Fields _).read

/-- Reads what a report says about one file. -/
def Issues.decode : Decoder Issues :=
  (mk <$> .required "file" Decoder.string <*> symbols "dependencies" <*>
    symbols "devDependencies" <*> symbols "unlisted" <*> symbols "exports" <*> symbols "types" :
    Fields _).read
where
  /-- A list of names, empty where it is left out. -/
  symbols (name : String) : Fields (List Symbol) := .defaulted name (Decoder.list Symbol.decode) []

/-- Reads a report. -/
def decode : Decoder Knip :=
  (mk <$> .defaulted "files" (Decoder.list Decoder.string) [] <*>
    .defaulted "issues" (Decoder.list Issues.decode) [] : Fields _).read

instance : Json.Encode Symbol :=
  ⟨fun s => .object [Json.field "name" s.name, Json.field "line" s.line,
    Json.field "col" s.column]⟩

instance : Json.Encode Issues :=
  ⟨fun i => .object [Json.field "file" i.file, Json.field "dependencies" i.dependencies,
    Json.field "devDependencies" i.devDependencies, Json.field "unlisted" i.unlisted,
    Json.field "exports" i.exports, Json.field "types" i.types]⟩

instance : Json.Encode Knip :=
  ⟨fun k => .object [Json.field "files" k.files, Json.field "issues" k.issues]⟩

/-- Whether nothing imports a file. -/
def isUnused (k : Knip) (file root : String) : Bool := k.files.any (isSameFile · file root)

/-- The first entry about a file. -/
def issuesOf? (k : Knip) (file root : String) : Option Issues :=
  k.issues.find? fun i => isSameFile i.file file root

/-- How many exports nothing uses, types included. -/
def unusedExports (k : Knip) : Nat :=
  (k.issues.map fun i => i.exports.length + i.types.length).foldr (· + ·) 0

end Knip

/-! ## Jscpd

Lines start at 1, and both ends of a block belong to it. -/

/-- One of two equal blocks. -/
structure Jscpd.Block where
  file : String
  start : UInt32
  finish : UInt32
deriving DecidableEq, Repr

/-- Two equal blocks. -/
structure Jscpd.Duplicate where
  format : String
  lines : UInt32
  fragment : String
  first : Jscpd.Block
  second : Jscpd.Block
deriving DecidableEq, Repr

/-- A report on a project. -/
structure Jscpd where
  duplicates : List Jscpd.Duplicate := []
deriving DecidableEq, Repr

namespace Jscpd

/-- Reads a block. -/
def Block.decode : Decoder Block :=
  (mk <$> .required "name" Decoder.string <*> .required "start" Decoder.uint32 <*>
    .required "end" Decoder.uint32 : Fields _).read

/-- Reads two equal blocks. -/
def Duplicate.decode : Decoder Duplicate :=
  (mk <$> .defaulted "format" Decoder.string "" <*> .required "lines" Decoder.uint32 <*>
    .defaulted "fragment" Decoder.string "" <*> .required "firstFile" Block.decode <*>
    .required "secondFile" Block.decode : Fields _).read

/-- Reads a report. -/
def decode : Decoder Jscpd :=
  (mk <$> .defaulted "duplicates" (Decoder.list Duplicate.decode) [] : Fields _).read

instance : Json.Encode Block :=
  ⟨fun b => .object [Json.field "name" b.file, Json.field "start" b.start,
    Json.field "end" b.finish]⟩

instance : Json.Encode Duplicate :=
  ⟨fun d => .object [Json.field "format" d.format, Json.field "lines" d.lines,
    Json.field "fragment" d.fragment, Json.field "firstFile" d.first,
    Json.field "secondFile" d.second]⟩

instance : Json.Encode Jscpd := ⟨fun j => .object [Json.field "duplicates" j.duplicates]⟩

/-- Two equal blocks as seen from one of them. -/
structure Clone where
  here : Block
  other : Block
  lines : UInt32
deriving DecidableEq, Repr

instance : Json.Encode Clone :=
  ⟨fun c => .object [Json.field "here" c.here, Json.field "other" c.other,
    Json.field "lines" c.lines]⟩

/-- Two equal blocks as seen from a file: none, one or both of them. -/
def Duplicate.clonesIn (d : Duplicate) (file root : String) : List Clone :=
  (if isSameFile d.first.file file root then [⟨d.first, d.second, d.lines⟩] else []) ++
    (if isSameFile d.second.file file root then [⟨d.second, d.first, d.lines⟩] else [])

/-- The equal blocks as seen from a file. -/
def clonesIn (j : Jscpd) (file root : String) : List Clone :=
  j.duplicates.flatMap (·.clonesIn file root)

/-- How many lines stand twice, unless adding them up overflows. -/
def duplicatedLines (j : Jscpd) : Option UInt32 := Word.sum? (j.duplicates.map (·.lines))

end Jscpd

end Steward.Tool
