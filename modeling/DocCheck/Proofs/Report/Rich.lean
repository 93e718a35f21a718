import Mathlib
import DocCheck.Proofs.Report.Porcelain
import DocCheck.Report.Rich

/-!
# Reading the report for people

In the report for people a finding does not name its file: that stands above, in a
line of its own, where the file changes. A line that starts with two blanks is a
finding, and every other line that is not empty names the file of the findings
below it. Read in this way the report gives back the findings, also if it comes
back to a file that it has left.

Results:

* `readBelow_richLine`: the line of a finding is read back, if the file is known.
* `readLines_richLines`: so are all lines between the first two and the last two.
* `richLines_eq`: there is one header for each maximal run of findings in one file.
* `rich_read_back`: all of this, of the text of a report.
-/
namespace DocCheck.Report

/-! ## One line -/

/-- What stands before the first blank, and what stands behind it and a second one. -/
def cutGap? (cs : List Char) : Option (List Char × List Char) :=
  match cs.dropWhile (· ≠ ' ') with
  | ' ' :: ' ' :: rest => some (cs.takeWhile (· ≠ ' '), rest)
  | _ => none

theorem cutGap_append {cs : List Char} (h : ' ' ∉ cs) (rest : List Char) :
    cutGap? (cs ++ ' ' :: ' ' :: rest) = some (cs, rest) := by
  have hcs : ∀ c ∈ cs, decide (c ≠ ' ') = true := by
    intro c hc
    exact decide_eq_true fun he => h (he ▸ hc)
  rw [cutGap?, List.dropWhile_append_of_pos hcs, List.takeWhile_append_of_pos hcs]
  simp

/-- The entry of a file that a line was written for. -/
def Entry.readBelow? (path line : List Char) : Option Entry := do
  let (place, rest) ← cutGap? (line.drop 2)
  let (rule, message) ← cutGap? rest
  match cutAt ':' 1 place with
  | [line, column] => do
    let line ← (String.ofList line).toInt?
    let column ← (String.ofList column).toInt?
    return ⟨String.ofList path, String.ofList rule, String.ofList message, ⟨line, column⟩⟩
  | _ => none

theorem blank_int (n : Int) : ' ' ∉ (toString n).toList := by
  intro h
  exact absurd (Decimal.mem_int h) (by decide)

theorem toList_place (e : Entry) : e.place.toList =
    (toString e.location.line).toList ++ ':' :: (toString e.location.column).toList := by
  simp [Entry.place]

theorem toList_richLine (e : Entry) : (richLine e).toList = ' ' :: ' ' :: (e.place.toList ++
    ' ' :: ' ' :: (e.rule.toList ++ ' ' :: ' ' :: e.message.toList)) := by
  simp [richLine]

theorem blank_place (e : Entry) : ' ' ∉ e.place.toList := by
  rw [toList_place, List.mem_append, List.mem_cons, not_or, not_or]
  exact ⟨blank_int _, by decide, blank_int _⟩

/-- The line of an entry is read back as the entry, whatever its message is. -/
theorem readBelow_richLine {e : Entry} (hrule : ' ' ∉ e.rule.toList) :
    Entry.readBelow? e.path.toList (richLine e).toList = some e := by
  have hplace : cutAt ':' 1 e.place.toList =
      [(toString e.location.line).toList, (toString e.location.column).toList] := by
    rw [toList_place, cutAt_append (Text.plain_int _).2, cutAt]
  simp only [Entry.readBelow?, toList_richLine, List.drop_succ_cons, List.drop_zero,
    cutGap_append (blank_place e), cutGap_append hrule, hplace, Option.bind_eq_bind,
    Option.bind_some]
  simp [Int.toInt?_repr]

/-! ## All lines -/

/-- A line that starts with two blanks is about a finding. -/
def isIndented (line : List Char) : Bool := [' ', ' '].isPrefixOf line

/-- A line that is neither empty nor about a finding names a file. -/
def isHeader (line : List Char) : Bool := !line.isEmpty && !isIndented line

/-- Reads lines one by one, where `file` is what the last header said. -/
def readLines (file : Option (List Char)) : List (List Char) → Option (List Entry)
  | [] => some []
  | line :: lines =>
    if isIndented line then do
      let path ← file
      let e ← Entry.readBelow? path line
      let es ← readLines file lines
      return e :: es
    else if isHeader line then readLines (some line) lines
    else readLines file lines

/-- The path of an entry is not empty and does not start with two blanks, its rule is one of the
rules, and path and message are on one line. -/
structure Entry.IsListable (e : Entry) : Prop where
  path_ne : e.path ≠ ""
  path_oneLine : IsOneLine e.path
  path_start : ¬ [' ', ' '] <+: e.path.toList
  rule : ∃ r : RuleId, e.rule = r.name
  message : IsOneLine e.message

namespace Entry.IsListable

variable {e : Entry} (h : e.IsListable)
include h

theorem isHeader_path : isHeader e.path.toList = true := by
  have hempty : e.path.toList.isEmpty = false := by
    simpa using h.path_ne
  have hindented : isIndented e.path.toList = false := by
    rw [isIndented, Bool.eq_false_iff, ne_eq, List.isPrefixOf_iff_prefix]
    exact h.path_start
  rw [isHeader, hempty, hindented]
  rfl

theorem blank_rule : ' ' ∉ e.rule.toList := by
  obtain ⟨r, hr⟩ := h.rule
  rw [hr]
  cases r <;> decide +kernel

end Entry.IsListable

theorem isIndented_richLine (e : Entry) : isIndented (richLine e).toList = true := by
  rw [toList_richLine]
  rfl

theorem isIndented_of_isHeader {line : List Char} (h : isHeader line = true) :
    isIndented line = false := by
  rw [isHeader, Bool.and_eq_true, Bool.not_eq_true'] at h
  simpa using h.2

section

variable {es : List Entry} (file : Option (List Char)) (lines : List (List Char))

theorem readLines_header {path : String} (h : isHeader path.toList = true) :
    readLines file (path.toList :: lines) = readLines (some path.toList) lines := by
  rw [readLines, isIndented_of_isHeader h, h]
  rfl

theorem readLines_richLine {e : Entry} (h : e.IsListable) :
    readLines (some e.path.toList) ((richLine e).toList :: lines) =
      (readLines (some e.path.toList) lines).map (e :: ·) := by
  rw [readLines, isIndented_richLine, if_pos rfl]
  simp only [Option.bind_eq_bind, Option.bind_some, readBelow_richLine h.blank_rule]
  cases readLines (some e.path.toList) lines <;> rfl

end

/-- The lines of entries are read back, whatever file the lines before are about. -/
theorem readLines_richLines {es : List Entry} (h : ∀ e ∈ es, e.IsListable)
    (file : Option String) :
    readLines (file.map String.toList) ((richLines file es).map String.toList) = some es := by
  induction es generalizing file with
  | nil => rfl
  | cons e es ih =>
    obtain ⟨he, hes⟩ := List.forall_mem_cons.mp h
    have hrest : readLines (some e.path.toList)
        ((richLine e :: richLines (some e.path) es).map String.toList) = some (e :: es) := by
      have ih := ih hes (some e.path)
      rw [Option.map_some] at ih
      rw [List.map_cons, readLines_richLine _ he, ih, Option.map_some]
    unfold richLines
    split
    · rw [List.cons_append, List.map_cons, readLines_header _ _ he.isHeader_path]
      exact hrest
    · rename_i path
      by_cases hp : path = e.path
      · rw [if_pos hp, hp]
        exact hrest
      · rw [if_neg hp, List.cons_append, List.cons_append, List.map_cons, List.map_cons]
        exact (readLines_header _ _ he.isHeader_path).trans hrest

/-! ## Runs -/

def sameFile (a b : Entry) : Bool := a.path = b.path

/-- The maximal runs of entries about one file. -/
def runs (es : List Entry) : List (List Entry) := es.splitBy sameFile

/-- The lines of a run: its file, and a line for each entry. -/
def runLines : List Entry → List String
  | [] => []
  | e :: es => e.path :: richLine e :: es.map richLine

/-- As long as the file stays the same there is no header. -/
theorem richLines_append {e last : Entry} {run : List Entry} (rest : List Entry)
    (h : (e :: run).IsChain fun a b => sameFile a b = true)
    (hlast : (e :: run).getLast? = some last) :
    richLines (some e.path) (run ++ rest) =
      run.map richLine ++ richLines (some last.path) rest := by
  induction run generalizing e with
  | nil =>
    cases hlast
    rfl
  | cons f run ih =>
    obtain ⟨hef, hrun⟩ := List.isChain_cons_cons.mp h
    have hpath : e.path = f.path := of_decide_eq_true hef
    rw [List.cons_append, richLines, if_pos hpath, ih hrun (by simpa using hlast)]
    rfl

/-- A finding in another file starts a new group behind an empty line. -/
theorem richLines_change {e f : Entry} (es : List Entry) (h : sameFile e f = false) :
    richLines (some e.path) (f :: es) = "" :: richLines none (f :: es) := by
  have hpath : e.path ≠ f.path := of_decide_eq_false h
  simp only [richLines, if_neg hpath, List.cons_append]

theorem richLines_flatten {rs : List (List Entry)} (hne : [] ∉ rs)
    (hsame : ∀ run ∈ rs, run.IsChain fun a b => sameFile a b = true)
    (hchange : rs.IsChain fun a b => ∃ ha hb, sameFile (a.getLast ha) (b.head hb) = false) :
    richLines none rs.flatten = [""].intercalate (rs.map runLines) := by
  induction rs with
  | nil => rfl
  | cons run rs ih =>
    have hrun : run ≠ [] := fun hnil => hne (by rw [hnil]; exact List.mem_cons_self)
    obtain ⟨e, run, rfl⟩ := List.exists_cons_of_ne_nil hrun
    obtain ⟨last, hlast⟩ : ∃ last, (e :: run).getLast? = some last :=
      ⟨_, List.getLast?_eq_some_getLast hrun⟩
    have hhead : ∀ rest, richLines none (e :: run ++ rest) =
        runLines (e :: run) ++ richLines (some last.path) rest := by
      intro rest
      rw [List.cons_append, richLines, richLines_append rest (hsame _ List.mem_cons_self) hlast]
      simp [runLines]
    rw [List.flatten_cons, hhead, List.map_cons]
    cases rs with
    | nil => simp [richLines]
    | cons next rs =>
      obtain ⟨⟨ha, hb, hother⟩, hchain⟩ := List.isChain_cons_cons.mp hchange
      obtain ⟨f, next, rfl⟩ := List.exists_cons_of_ne_nil hb
      have hlast : last = (e :: run).getLast ha := by
        rw [List.getLast?_eq_some_getLast ha, Option.some.injEq] at hlast
        exact hlast.symm
      have ih := ih (fun hnil => hne (List.mem_cons_of_mem _ hnil))
        (fun m hm => hsame m (List.mem_cons_of_mem _ hm)) hchain
      rw [List.flatten_cons, List.cons_append] at ih ⊢
      rw [richLines_change _ (hlast ▸ hother), ih, List.map_cons, List.intercalate_cons_cons,
        List.append_assoc]
      rfl

/-- The lines of all entries are those of each run, with an empty line between two runs. -/
theorem richLines_eq (es : List Entry) :
    richLines none es = [""].intercalate ((runs es).map runLines) := by
  have h := richLines_flatten (List.nil_notMem_splitBy sameFile es)
    (fun _ hm => List.isChain_of_mem_splitBy hm) (List.isChain_getLast_head_splitBy sameFile es)
  rwa [List.flatten_splitBy] at h

/-! ## Headers -/

theorem filter_intercalate {α : Type} {p : α → Bool} {sep : α} (h : p sep = false)
    (parts : List (List α)) :
    ([sep].intercalate parts).filter p = parts.flatMap (List.filter p) := by
  induction parts with
  | nil => rfl
  | cons part parts ih =>
    cases parts with
    | nil => simp
    | cons q parts =>
      rw [List.intercalate_cons_cons, List.filter_append, List.filter_append, ih,
        List.filter_singleton, h, List.flatMap_cons]
      simp

/-- Of the lines of entries those are headers that a run starts with. -/
theorem headers_richLines {es : List Entry} (h : ∀ e ∈ es, e.IsListable) :
    ((richLines none es).filter fun line => isHeader line.toList).map some =
      (runs es).map fun run => run.head?.map Entry.path := by
  have hheader : ∀ e : Entry, isHeader (richLine e).toList = false := by
    intro e
    rw [isHeader, isIndented_richLine, Bool.not_true, Bool.and_false]
  rw [richLines_eq, filter_intercalate rfl, List.flatMap_map, List.map_flatMap,
    List.map_eq_flatMap]
  refine List.flatMap_congr fun run hrun => ?_
  obtain ⟨e, run, rfl⟩ := List.exists_cons_of_ne_nil (List.ne_nil_of_mem_splitBy hrun)
  have hmem : e ∈ es := by
    rw [← List.flatten_splitBy sameFile es]
    exact List.mem_flatten_of_mem hrun List.mem_cons_self
  simp [runLines, (h e hmem).isHeader_path, hheader]

/-! ## The first and the last lines -/

theorem isOneLine_onePlace (x : Float) : IsOneLine (Decimal.onePlace x) := by
  have hsign : ∀ negative : Bool, IsOneLine (if negative then "-" else "") := by decide
  have htenths : ∀ (negative : Bool) (n : Nat), IsOneLine ((if negative then "-" else "") ++
      toString (n / 10) ++ "." ++ toString (n % 10)) := by
    intro negative n
    simp only [Text.isOneLine_append]
    exact ⟨⟨⟨hsign negative, (Text.plain_nat _).1⟩, by decide⟩, (Text.plain_nat _).1⟩
  unfold Decimal.onePlace
  split
  · decide
  · rename_i negative _
    cases negative <;> decide
  · exact htenths _ _
  · exact htenths _ _

theorem isOneLine_richSummary (r : Result) : IsOneLine (richSummary r) := by
  simp only [richSummary, Text.isOneLine_append]
  exact ⟨⟨⟨⟨by decide, (Text.plain_int _).1⟩, by decide⟩, isOneLine_onePlace _⟩, by decide⟩

theorem isOneLine_richLine {e : Entry} (h : e.IsListable) : IsOneLine (richLine e) := by
  have hrule : IsOneLine e.rule := by
    obtain ⟨r, hr⟩ := h.rule
    rw [hr]
    exact (plain_ruleName r).1
  simp only [richLine, Entry.place, Text.isOneLine_append]
  exact ⟨⟨⟨⟨⟨by decide, ⟨(Text.plain_int _).1, by decide⟩, (Text.plain_int _).1⟩, by decide⟩,
    hrule⟩, by decide⟩, h.message⟩

theorem isOneLine_richLines {es : List Entry} (h : ∀ e ∈ es, e.IsListable)
    (file : Option String) : ∀ line ∈ richLines file es, IsOneLine line := by
  induction es generalizing file with
  | nil => simp [richLines]
  | cons e es ih =>
    obtain ⟨he, hes⟩ := List.forall_mem_cons.mp h
    intro line hline
    unfold richLines at hline
    rcases List.mem_append.mp hline with hline | hline
    · split at hline
      · rw [List.mem_singleton.mp hline]
        exact he.path_oneLine
      · split at hline
        · cases hline
        · rcases List.mem_cons.mp hline with rfl | hline
          · decide
          · rw [List.mem_singleton.mp hline]
            exact he.path_oneLine
    · rcases List.mem_cons.mp hline with rfl | hline
      · exact isOneLine_richLine he
      · exact ih hes _ line hline

/-- The number of findings that the last line tells. -/
def countOf? : List Char → Option Nat
  | '✗' :: ' ' :: rest =>
    let digits := (Decimal.spanDigits rest).1
    if digits.isEmpty then none else some (Decimal.ofDigits digits)
  | _ => none

/-- If there are findings, an empty line and their number are at the end. -/
theorem exists_richFooter {r : Result} (h : r.entries ≠ []) :
    ∃ last, richFooter r = ["", last] ∧ IsOneLine last ∧
      countOf? last.toList = some r.entries.length := by
  obtain ⟨noun, hfooter, hnoun⟩ : ∃ noun, richFooter r =
      ["", "✗ " ++ toString r.entries.length ++ noun ++ richSummary r] ∧
        (noun = " finding " ∨ noun = " findings ") := by
    unfold richFooter
    split
    · exact absurd (List.eq_nil_of_length_eq_zero ‹_›) h
    · rename_i hlength
      refine ⟨_, ?_, .inl rfl⟩
      rw [hlength]
      rfl
    · exact ⟨_, rfl, .inr rfl⟩
  obtain ⟨tail, htail, hline⟩ : ∃ tail, noun.toList = ' ' :: tail ∧ IsOneLine noun := by
    rcases hnoun with rfl | rfl
    · exact ⟨_, rfl, by decide⟩
    · exact ⟨_, rfl, by decide⟩
  refine ⟨_, hfooter, ?_, ?_⟩
  · simp only [Text.isOneLine_append]
    exact ⟨⟨⟨by decide, (Text.plain_nat _).1⟩, hline⟩, isOneLine_richSummary r⟩
  · have hlast : ("✗ " ++ toString r.entries.length ++ noun ++ richSummary r).toList =
        '✗' :: ' ' :: ((toString r.entries.length).toList ++
          ' ' :: (tail ++ (richSummary r).toList)) := by
      simp only [String.toList_append, htail, List.append_assoc, List.cons_append]
      rfl
    have hdigits : Decimal.spanDigits ((toString r.entries.length).toList ++
        ' ' :: (tail ++ (richSummary r).toList)) =
          ((toString r.entries.length).toList, ' ' :: (tail ++ (richSummary r).toList)) := by
      refine Decimal.spanDigits_append (fun _ hd => Decimal.isDigit_of_mem_nat hd) ?_
      rintro c ⟨⟩
      decide
    have hne : (toString r.entries.length).toList.isEmpty = false := by
      rw [List.isEmpty_eq_false_iff]
      exact Decimal.toList_nat_ne_nil _
    simp only [hlast, countOf?, hdigits, hne, Decimal.ofDigits_nat]
    rfl

/-! ## The report -/

/-- The report for people, with at least one finding, of entries whose paths can be told from the
other lines. Between the first two lines and the last two stand the findings: read line by line
they are the entries, in order. They are grouped in maximal runs about one file, each under one
header, with an empty line between two runs, and the last line tells how many entries there are. -/
theorem rich_read_back {r : Result} (hne : r.entries ≠ []) (h : ∀ e ∈ r.entries, e.IsListable) :
    ∃ first body last, (rich r).toList.splitOn '\n' = first :: [] :: body ++ [[], last] ∧
      readLines none body = some r.entries ∧
      body = ([""].intercalate ((runs r.entries).map runLines)).map String.toList ∧
      (body.filter isHeader).map some =
        (runs r.entries).map (fun run => run.head?.map fun e => e.path.toList) ∧
      countOf? last = some r.entries.length := by
  obtain ⟨last, hfooter, hlast, hcount⟩ := exists_richFooter hne
  let first := "Files: " ++ toString r.filesScanned ++ " scanned, " ++
    toString r.functionsChecked ++ " functions checked"
  have hfirst : IsOneLine first := by
    simp only [first, Text.isOneLine_append]
    exact ⟨⟨⟨⟨by decide, (Text.plain_int _).1⟩, by decide⟩, (Text.plain_int _).1⟩, by decide⟩
  have hempty : IsOneLine "" := by decide
  have hlines : ∀ line ∈ first :: "" :: richLines none r.entries ++ ["", last],
      IsOneLine line := by
    intro line hline
    simp only [List.cons_append, List.mem_cons, List.mem_append, List.not_mem_nil,
      or_false] at hline
    rcases hline with rfl | rfl | hline | rfl | rfl
    · exact hfirst
    · exact hempty
    · exact isOneLine_richLines h none line hline
    · exact hempty
    · exact hlast
  refine ⟨first.toList, (richLines none r.entries).map String.toList, last.toList, ?_,
    readLines_richLines h none, by rw [← richLines_eq], ?_, hcount⟩
  · have hsplit : (rich r).toList.splitOn '\n' =
        (first :: "" :: richLines none r.entries ++ ["", last]).map String.toList := by
      rw [rich, hfooter, String.toList_intercalate]
      exact List.splitOn_intercalate '\n' (List.forall_mem_map.mpr hlines) (by simp)
    rw [hsplit]
    simp
  · have hheaders := congrArg (List.map (Option.map String.toList)) (headers_richLines h)
    simpa [List.filter_map, Function.comp_def] using hheaders

/-- A result with findings in one file, in another one, and in the first one again. -/
def returning : Result :=
  ⟨[⟨"a.js", "checkTypes", "Invalid type '  1:2  '", ⟨3, 0⟩⟩,
      ⟨"a.js", "checkParamNames", "Expected 'x' but got 'y'", ⟨12, 4⟩⟩,
      ⟨"b c.js", "enforceExistence", "Missing doc-comment for 'f'", ⟨1, 0⟩⟩,
      ⟨"a.js", "checkTypes", "", ⟨-1, 2⟩⟩], 3, 2, 7, 0⟩

/-- The file that the report comes back to has two headers. -/
theorem rich_read_back_returning :
    returning.entries ≠ [] ∧ (∀ e ∈ returning.entries, e.IsListable) ∧
      ∃ first body last,
        (rich returning).toList.splitOn '\n' = first :: [] :: body ++ [[], last] ∧
          readLines none body = some returning.entries ∧
          (body.filter isHeader).map some =
            ["a.js", "b c.js", "a.js"].map (fun path => some path.toList) ∧
          countOf? last = some 4 := by
  have hne : returning.entries ≠ [] := by decide
  have hlistable : ∀ e ∈ returning.entries, e.IsListable := by
    simp only [returning, List.forall_mem_cons, List.not_mem_nil, false_imp_iff, implies_true,
      and_true]
    exact ⟨⟨by decide, by decide, by decide, ⟨.checkTypes, rfl⟩, by decide⟩,
      ⟨by decide, by decide, by decide, ⟨.checkParamNames, rfl⟩, by decide⟩,
      ⟨by decide, by decide, by decide, ⟨.enforceExistence, rfl⟩, by decide⟩,
      ⟨by decide, by decide, by decide, ⟨.checkTypes, rfl⟩, by decide⟩⟩
  obtain ⟨first, body, last, hlines, hread, -, hheaders, hcount⟩ := rich_read_back hne hlistable
  have hruns : (runs returning.entries).map (fun run => run.head?.map fun e => e.path.toList) =
      ["a.js", "b c.js", "a.js"].map (fun path => some path.toList) := by
    decide +kernel
  exact ⟨hne, hlistable, first, body, last, hlines, hread, hheaders.trans hruns, hcount⟩

end DocCheck.Report
