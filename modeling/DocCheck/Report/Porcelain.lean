import DocCheck.Report.Basic

/-!
# The report for machines

One line for each finding; its parts stand between colons (SPEC_FULL 2,
formatters).
-/
namespace DocCheck.Report

def porcelainLine (e : Entry) : String :=
  e.path ++ ":" ++ e.place ++ ":" ++ e.rule ++ ":" ++ e.message

/-- The report for machines; empty without findings. -/
def porcelain (r : Result) : String := "\n".intercalate (r.entries.map porcelainLine)

end DocCheck.Report
