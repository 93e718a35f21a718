import DocCheck.Decimal.Fixed
import DocCheck.Report.Basic

/-!
# The report for people

Findings stand under the file that they were made in, and a line at the end counts
them (SPEC_FULL 2, formatters).
-/
namespace DocCheck.Report

/-- The line of an entry below its file. -/
def richLine (e : Entry) : String := "  " ++ e.place ++ "  " ++ e.rule ++ "  " ++ e.message

/-- The lines of entries, where `current` is the file that the lines before are about. -/
def richLines (current : Option String) : List Entry → List String
  | [] => []
  | e :: es =>
    let header :=
      match current with
      | none => [e.path]
      | some path => if path = e.path then [] else ["", e.path]
    header ++ richLine e :: richLines (some e.path) es

def richSummary (r : Result) : String :=
  "(" ++ toString r.rulesEnabled ++ " rules enabled, " ++ Decimal.onePlace (r.elapsed / 1000) ++
    "s)"

def richFooter (r : Result) : List String :=
  match r.entries.length with
  | 0 => ["✓ No findings " ++ richSummary r]
  | 1 => ["", "✗ 1 finding " ++ richSummary r]
  | n => ["", "✗ " ++ toString n ++ " findings " ++ richSummary r]

/-- The report for people. -/
def rich (r : Result) : String :=
  let header :=
    "Files: " ++ toString r.filesScanned ++ " scanned, " ++ toString r.functionsChecked ++
      " functions checked"
  "\n".intercalate (header :: "" :: richLines none r.entries ++ richFooter r)

end DocCheck.Report
