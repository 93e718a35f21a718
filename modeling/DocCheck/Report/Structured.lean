import DocCheck.Json.Basic
import DocCheck.Report.Basic

/-!
# The report for programs

An object with all findings and a summary (SPEC_FULL 2, formatters).
-/
namespace DocCheck.Report

def Entry.toJson (e : Entry) : Json :=
  .obj [("file_path", .str e.path), ("line", .int e.location.line),
    ("column", .int e.location.column), ("rule_id", .str e.rule), ("message", .str e.message)]

def Result.toJson (r : Result) : Json :=
  .obj [("findings", .arr (r.entries.map Entry.toJson)),
    ("summary", .obj [("rules_enabled", .int r.rulesEnabled),
      ("findings_count", .int r.entries.length), ("files_scanned", .int r.filesScanned),
      ("functions_checked", .int r.functionsChecked), ("elapsed_ms", .float r.elapsed)])]

/-- The report for programs. -/
def structured (r : Result) : String := r.toJson.pretty

end DocCheck.Report
