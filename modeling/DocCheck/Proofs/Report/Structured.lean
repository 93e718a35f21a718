import Mathlib.Data.List.Forall2
import DocCheck.Proofs.Json.RoundTrip
import DocCheck.Report.Structured

/-!
# What the report for programs says

A program that reads the report as JSON finds the entries in it, in their order and
each with its own fields, and the numbers of the run. The characters of paths, rules
and messages come back as they were, though the report is in ASCII.

Results:

* `exists_parse`: the report is read as its object, with some double for the time.
* `structured_read_back`: the entries and the numbers are read back.
-/
namespace DocCheck

namespace Json

def str? : Json → Option String
  | str s => some s
  | _ => none

def int? : Json → Option Int
  | int n => some n
  | _ => none

def names : Json → List String
  | obj fields => fields.map Prod.fst
  | _ => []

end Json

namespace Report

open Json

/-- The entry that an object stands for. -/
def Entry.ofJson? (v : Json) : Option Entry := do
  let path ← (← v.field? "file_path").str?
  let line ← (← v.field? "line").int?
  let column ← (← v.field? "column").int?
  let rule ← (← v.field? "rule_id").str?
  let message ← (← v.field? "message").str?
  some ⟨path, rule, message, line, column⟩

theorem Entry.ofJson_toJson (e : Entry) : Entry.ofJson? e.toJson = some e := rfl

theorem Entry.names_toJson (e : Entry) :
    e.toJson.names = ["file_path", "line", "column", "rule_id", "message"] := rfl

/-- An entry is read back. -/
theorem Entry.readsAs (e : Entry) : ReadsAs e.toJson e.toJson :=
  ReadsAs.obj <| .cons ⟨rfl, reads_str _⟩ <| .cons ⟨rfl, reads_int _⟩ <|
    .cons ⟨rfl, reads_int _⟩ <| .cons ⟨rfl, reads_str _⟩ <| .cons ⟨rfl, reads_str _⟩ .nil

/-- A result is read back, with some double for the time. -/
theorem Result.exists_readsAs (r : Result) :
    ∃ elapsed, ReadsAs r.toJson { r with elapsed := elapsed }.toJson := by
  obtain ⟨elapsed, helapsed⟩ := exists_reads_float r.elapsed
  have hentries :
      List.Forall₂ ReadsAs (r.entries.map Entry.toJson) (r.entries.map Entry.toJson) := by
    rw [List.forall₂_map_left_iff, List.forall₂_map_right_iff, List.forall₂_same]
    exact fun e _ => e.readsAs
  refine ⟨elapsed, ReadsAs.obj <| .cons ⟨rfl, .arr hentries⟩ <| .cons ⟨rfl, .obj ?_⟩ .nil⟩
  exact .cons ⟨rfl, reads_int _⟩ <| .cons ⟨rfl, reads_int _⟩ <| .cons ⟨rfl, reads_int _⟩ <|
    .cons ⟨rfl, reads_int _⟩ <| .cons ⟨rfl, helapsed⟩ .nil

/-- The report is read as its object, with some double for the time. -/
theorem exists_parse (r : Result) :
    ∃ elapsed, Json.parse (structured r) = some { r with elapsed := elapsed }.toJson := by
  obtain ⟨elapsed, hread⟩ := r.exists_readsAs
  exact ⟨elapsed, hread.parse⟩

/-- The report is in ASCII, and it is read as an object. Under `findings` it has the entries in
their order, each with its own fields and no others, and under `summary` it has their number and
the numbers of the run. -/
theorem structured_read_back (r : Result) :
    (∀ c ∈ (structured r).toList, c.toNat < 128) ∧
    ∃ v findings summary, Json.parse (structured r) = some v ∧
      v.field? "findings" = some (.arr findings) ∧ v.field? "summary" = some summary ∧
      findings.map Entry.ofJson? = r.entries.map some ∧
      (∀ f ∈ findings, f.names = ["file_path", "line", "column", "rule_id", "message"]) ∧
      summary.field? "findings_count" = some (.int findings.length) ∧
      summary.field? "rules_enabled" = some (.int r.rulesEnabled) ∧
      summary.field? "files_scanned" = some (.int r.filesScanned) ∧
      summary.field? "functions_checked" = some (.int r.functionsChecked) := by
  obtain ⟨elapsed, hparse⟩ := exists_parse r
  refine ⟨isAscii_pretty _, _, r.entries.map Entry.toJson, _, hparse, rfl, rfl, ?_, ?_, ?_, rfl,
    rfl, rfl⟩
  · rw [List.map_map]
    exact List.map_congr_left fun e _ => e.ofJson_toJson
  · intro f hf
    obtain ⟨e, -, rfl⟩ := List.mem_map.mp hf
    exact e.names_toJson
  · rw [List.length_map]
    rfl

end Report

end DocCheck
