import DocCheck.Rule.Basic

/-!
# Results of a run

The findings of a run, each with the file that it was made in, and what the run
went through (SPEC_FULL 2, lint orchestrator).
-/
namespace DocCheck.Report

structure Entry where
  path : String
  rule : String
  message : String
  location : Location
deriving DecidableEq, Repr

def Entry.ofFinding (path : String) (f : Finding) : Entry :=
  ⟨path, f.rule.name, f.message, f.location⟩

structure Result where
  entries : List Entry
  rulesEnabled : Int
  filesScanned : Int
  functionsChecked : Int
  /-- How long the run took, in milliseconds. -/
  elapsed : Float

/-- The line and column of an entry, with a colon between them. -/
def Entry.place (e : Entry) : String :=
  toString e.location.line ++ ":" ++ toString e.location.column

end DocCheck.Report
