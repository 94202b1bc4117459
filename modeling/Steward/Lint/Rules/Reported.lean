import Steward.Lint.Rule
import Steward.Tool.Report

/-!
# Rules that show reports

What the tools that look at a whole project found in the file that is linted.
-/

namespace Steward.Lint

open Tool

/-! ## Unused exports -/

/-- The span of a place that may not be known. -/
def pointAt (line column : Option UInt32) : Span :=
  { line := line.getD 1, column := column.getD 1 }

/-- The report of an unused name. -/
def unusedReport (messageId : String) (s : Knip.Symbol) : Report :=
  { messageId, span := pointAt s.line s.column, data := [("name", s.name)] }

/-- The reports of what is unused in a file. -/
def unusedReports (report : Knip) (file root : String) : List Report :=
  (if report.isUnused file root then [{ messageId := "unusedFile", span := pointAt none none }]
    else []) ++
  match report.issuesOf? file root with
  | some i =>
    i.exports.map (unusedReport "unusedExport") ++ i.types.map (unusedReport "unusedType")
  | none => []

/-- Reports the exports of a file that nothing uses. -/
def noUnusedExports (root : String) (report : Knip) : Rule where
  about :=
    { name := "no-unused-exports", kind := .suggestion
      description := "Report exports and files that knip found unused"
      messages := [
        ("unusedExport", "`\x7b\x7bname\x7d\x7d` is exported but never imported (knip)."),
        ("unusedType", "Type `\x7b\x7bname\x7d\x7d` is exported but never imported (knip)."),
        ("unusedFile", "File is not imported anywhere (knip).")] }
  handlers file := [("Program", fun _ _ => { reports := unusedReports report file.name root })]

/-! ## Duplicated code -/

/-- The report of a block that stands twice. -/
def cloneReport (c : Jscpd.Clone) : Report :=
  { messageId := "duplicate"
    span := { line := c.here.start, column := 1, endLine := some c.here.finish }
    data := [("lines", Text.decimal c.lines.toNat), ("other", c.other.file),
      ("otherLine", Text.decimal c.other.start.toNat)] }

/-- Reports the blocks of a file that stand twice in the project. -/
def noCodeDuplication (root : String) (report : Jscpd) : Rule where
  about :=
    { name := "no-code-duplication", kind := .suggestion
      description := "Report code blocks that jscpd found duplicated"
      messages := [("duplicate", "\x7b\x7blines\x7d\x7d lines duplicated in " ++
        "\x7b\x7bother\x7d\x7d:\x7b\x7botherLine\x7d\x7d (jscpd).")] }
  handlers file := [("Program", fun _ _ =>
    { reports := (report.clonesIn file.name root).map cloneReport })]

end Steward.Lint
