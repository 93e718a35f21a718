import Mathlib
import DocCheck.Config.Resolve
import DocCheck.Proofs.Lint.Run
import DocCheck.Proofs.Rule.Message
import DocCheck.Report.Porcelain

/-!
# Reading the report for machines

A line of the report is taken apart at its first four colons: paths are assumed to
hold none, and numbers and names of rules never do. The report has a line for
each finding and one more for each line feed in a message. So it can be read
back as long as no rule quotes a text that goes over several lines.

Results:

* `read_porcelainLine`: the line of an entry is read back as the entry.
* `isRead_of_mem_subjects`: the comment of a function in a source was read from a text.
* `porcelain_read_back`: how many lines a report has, and when it is read back.
* `porcelain_broken_line`: a type that goes over two lines makes two lines of one finding.
-/
namespace DocCheck

namespace Report

/-! ## One line -/

/-- The parts of a text between the first separators, of which at most some count. -/
def cutAt (sep : Char) : Nat → List Char → List (List Char)
  | 0, cs => [cs]
  | n + 1, cs =>
    match cs.dropWhile (· ≠ sep) with
    | [] => [cs]
    | _ :: rest => cs.takeWhile (· ≠ sep) :: cutAt sep n rest

theorem cutAt_append {sep : Char} {cs : List Char} (h : sep ∉ cs) (n : Nat) (rest : List Char) :
    cutAt sep (n + 1) (cs ++ sep :: rest) = cs :: cutAt sep n rest := by
  have hcs : ∀ c ∈ cs, decide (c ≠ sep) = true := by
    intro c hc
    exact decide_eq_true fun he => h (he ▸ hc)
  rw [cutAt, List.dropWhile_append_of_pos hcs, List.takeWhile_append_of_pos hcs]
  simp

/-- The entry that a line was written for. -/
def Entry.read? (line : List Char) : Option Entry :=
  match cutAt ':' 4 line with
  | [path, line, column, rule, message] => do
    let line ← (String.ofList line).toInt?
    let column ← (String.ofList column).toInt?
    return ⟨String.ofList path, String.ofList rule, String.ofList message, ⟨line, column⟩⟩
  | _ => none

/-- The line of an entry is read back as the entry, whatever its message is. -/
theorem read_porcelainLine {e : Entry} (hpath : ':' ∉ e.path.toList)
    (hrule : ':' ∉ e.rule.toList) : Entry.read? (porcelainLine e).toList = some e := by
  have hline : (porcelainLine e).toList = e.path.toList ++ ':' ::
      ((toString e.location.line).toList ++ ':' :: ((toString e.location.column).toList ++ ':' ::
        (e.rule.toList ++ ':' :: e.message.toList))) := by
    simp [porcelainLine, Entry.place]
  rw [Entry.read?, hline, cutAt_append hpath, cutAt_append (Text.plain_int _).2,
    cutAt_append (Text.plain_int _).2, cutAt_append hrule]
  simp [cutAt, Int.toInt?_repr]

theorem plain_ruleName (r : RuleId) : Text.IsPlain r.name := by
  cases r <;> exact ⟨by decide +kernel, by decide +kernel⟩

/-! ## All lines -/

theorem length_splitOn (sep : Char) (cs : List Char) :
    (cs.splitOn sep).length = cs.count sep + 1 := by
  induction cs with
  | nil => simp
  | cons c cs ih =>
    rw [List.splitOn_cons_eq_if_modifyHead, List.count_cons]
    split <;> simp [ih]

/-- Texts with separators between them are cut into as many parts, and one more for each
separator in a text. -/
theorem length_splitOn_intercalate (sep : Char) {parts : List (List Char)} (h : parts ≠ []) :
    (([sep].intercalate parts).splitOn sep).length =
      parts.length + (parts.map (List.count sep)).sum := by
  rw [length_splitOn]
  induction parts with
  | nil => exact absurd rfl h
  | cons part parts ih =>
    cases parts with
    | nil => simp [Nat.add_comm]
    | cons q parts =>
      have := ih (by simp)
      rw [List.intercalate_cons_cons, List.count_append, List.count_append, List.map_cons,
        List.sum_cons]
      simp only [List.count_singleton_self, List.length_cons] at this ⊢
      omega

end Report

/-! ## What a run reports -/

/-- The comment of a function in a source was read from a text. -/
theorem Source.isRead_of_mem_subjects {parser : Parser} {text suffix : String} {s : Subject}
    {t : Tag} (hs : s ∈ subjects parser text suffix) (ht : t ∈ s.tags) : t.IsRead := by
  have hsubject : ∃ p : Place, s = p.subject := by
    unfold subjects at hs
    split at hs
    · cases hs
    · split at hs
      · cases hs
      · obtain ⟨p, -, rfl⟩ := List.mem_map.mp hs
        exact ⟨p, rfl⟩
  obtain ⟨p, rfl⟩ := hsubject
  have hcomment : p.subject.comment = p.introduction.anchor.comment? := rfl
  rw [Subject.tags, hcomment] at ht
  unfold Place.comment? at ht
  split at ht
  · rename_i c hc
    split at hc
    · split at hc
      · cases hc
        exact (Comment.isRead_parse _ _).tags t ht
      · cases hc
    · cases hc
  · cases ht

namespace Lint

variable {parser : Source.Parser} {disk : Disk} {config : Config}

theorem mem_texts {ps : List Path} {p : Path} {text : String} (h : (p, text) ∈ texts disk ps) :
    p ∈ ps ∧ textAt? disk p = some text := by
  obtain ⟨q, hq, htext⟩ := List.mem_filterMap.mp h
  obtain ⟨text', htext, he⟩ := Option.map_eq_some_iff.mp htext
  cases he
  exact ⟨hq, htext⟩

theorem exists_of_mem_entries {ps : List Path} {e : Report.Entry}
    (h : e ∈ (files parser disk config ps).entries) :
    ∃ p ∈ ps, ∃ text, textAt? disk p = some text ∧
      ∃ s ∈ Source.subjects parser text p.suffix, ∃ f ∈ Rule.evaluate config s,
        e = .ofFinding (toString p) f := by
  rw [files_eq] at h
  have hentries : e ∈ (texts disk ps).flatMap (entriesIn parser config) := h
  obtain ⟨⟨p, text⟩, hsource, he⟩ := List.mem_flatMap.mp hentries
  obtain ⟨hp, htext⟩ := mem_texts hsource
  obtain ⟨f, hf, rfl⟩ := List.mem_map.mp he
  obtain ⟨s, hs, hf⟩ := List.mem_flatMap.mp hf
  exact ⟨p, hp, text, htext, s, hs, f, hf, rfl⟩

/-- No enabled rule may quote a text from the file that goes over several lines. -/
def QuotesOneLine (parser : Source.Parser) (disk : Disk) (config : Config) (p : Path) : Prop :=
  ∀ text, textAt? disk p = some text → ∀ s ∈ Source.subjects parser text p.suffix,
    ∀ r, (config.get r).isSome = true → ∀ q ∈ Rule.quotes s r, IsOneLine q

theorem isOneLine_of_mem_entries {ps : List Path}
    (hq : ∀ p ∈ ps, QuotesOneLine parser disk config p)
    {e : Report.Entry} (h : e ∈ (files parser disk config ps).entries) : IsOneLine e.message := by
  obtain ⟨p, hp, text, htext, s, hs, f, hf, rfl⟩ := exists_of_mem_entries h
  rw [Rule.evaluate_eq_flatMap_run] at hf
  obtain ⟨r, -, hf⟩ := List.mem_flatMap.mp hf
  unfold Rule.run at hf
  split at hf
  · rename_i choice hchoice
    exact Rule.isOneLine_of_mem_apply (fun t ht => Source.isRead_of_mem_subjects hs ht)
      (hq p hp text htext s hs r (by simp [hchoice])) hf
  · cases hf

theorem plain_of_mem_entries {ps : List Path} (hp : ∀ p ∈ ps, Text.IsPlain (toString p))
    {e : Report.Entry} (h : e ∈ (files parser disk config ps).entries) :
    Text.IsPlain e.path ∧ Text.IsPlain e.rule := by
  obtain ⟨p, hmem, _, _, _, _, f, _, rfl⟩ := exists_of_mem_entries h
  exact ⟨hp p hmem, Report.plain_ruleName f.rule⟩

end Lint

namespace Report

/-! ## The report -/

/-- A line has the line feeds of the message that it was written for. -/
theorem count_porcelainLine {e : Entry} (hpath : '\n' ∉ e.path.toList)
    (hrule : '\n' ∉ e.rule.toList) :
    (porcelainLine e).toList.count '\n' = e.message.toList.count '\n' := by
  have hplace : '\n' ∉ e.place.toList := by
    have hline := (Text.plain_int e.location.line).1
    have hcolumn := (Text.plain_int e.location.column).1
    simp only [Entry.place, String.toList_append, List.mem_append, not_or]
    exact ⟨⟨hline, by decide +kernel⟩, hcolumn⟩
  simp [porcelainLine, List.count_eq_zero_of_not_mem hpath,
    List.count_eq_zero_of_not_mem hrule, List.count_eq_zero_of_not_mem hplace]

/-- The report for machines of a run over files whose paths hold no line feed and no colon. Without
findings it is empty. Otherwise it has a line for each finding and one more for each line feed in
a message; and if no enabled rule quotes a text that goes over several lines, the lines
are read back as the findings. -/
theorem porcelain_read_back {parser : Source.Parser} {disk : Disk} {config : Config}
    {paths : List Path}
    (hpaths : ∀ p ∈ Discovery.files disk paths, Text.IsPlain (toString p)) (elapsed : Float) :
    let t := Lint.run parser disk config paths
    let lines := (porcelain (t.result config elapsed)).toList.splitOn '\n'
    (t.entries = [] → porcelain (t.result config elapsed) = "") ∧
      (t.entries ≠ [] → lines.length =
        t.entries.length + (t.entries.map fun e => e.message.toList.count '\n').sum) ∧
      (t.entries ≠ [] →
        (∀ p ∈ Discovery.files disk paths, Lint.QuotesOneLine parser disk config p) →
        lines.map Entry.read? = t.entries.map some) := by
  intro t lines
  have hplain : ∀ e ∈ t.entries, Text.IsPlain e.path ∧ Text.IsPlain e.rule :=
    fun e he => Lint.plain_of_mem_entries hpaths he
  have hlines : lines = (['\n'].intercalate
      (t.entries.map fun e => (porcelainLine e).toList)).splitOn '\n' := by
    show (porcelain (t.result config elapsed)).toList.splitOn '\n' = _
    rw [porcelain, String.toList_intercalate, List.map_map]
    rfl
  have hcount : t.entries.map (fun e => (porcelainLine e).toList.count '\n') =
      t.entries.map fun e => e.message.toList.count '\n' :=
    List.map_congr_left fun e he => count_porcelainLine (hplain e he).1.1 (hplain e he).2.1
  refine ⟨fun hnil => ?_, fun hne => ?_, fun hne hq => ?_⟩
  · rw [porcelain, Lint.Tally.result, hnil]
    rfl
  · rw [← hcount, hlines, length_splitOn_intercalate '\n' (by simpa using hne), List.map_map,
      List.length_map]
    rfl
  · have honeLine : ∀ e ∈ t.entries, '\n' ∉ (porcelainLine e).toList := by
      intro e he
      rw [← List.count_eq_zero, count_porcelainLine (hplain e he).1.1 (hplain e he).2.1,
        List.count_eq_zero]
      exact Lint.isOneLine_of_mem_entries hq he
    rw [hlines, List.splitOn_intercalate '\n' (by simpa using honeLine) (by simpa using hne),
      List.map_map]
    exact List.map_congr_left fun e he => read_porcelainLine (hplain e he).1.2 (hplain e he).2.2

/-- The disk of a directory that holds a source of some text. -/
def diskOfText (text : String) : Disk :=
  (Entry.directory [("a.js", .file (some text.toUTF8))]).disk

/-- The parser of sources that hold a comment and behind it `function f(x)` without a body, which
starts at a row and column. -/
def parserOf (comment : String) (row column : Nat) : Source.Parser := fun _ => some fun text =>
  .mk "program" true none text 0 0
    [.mk "comment" true none comment 0 0 [], Lint.functionNode row column]

/-- A source with a tag that does not fit the parameter. -/
def misnamed : String := "/** @param y */function f(x){}"

/-- The law holds of a run with a finding. -/
theorem porcelain_read_back_misnamed :
    let config : Config := ⟨fun r => if r = .checkParamNames then some .on else none⟩
    let parser := parserOf "/** @param y */" 0 15
    let t := Lint.run parser (diskOfText misnamed) config [⟨false, ["a.js"]⟩]
    t.entries = [⟨"a.js", "checkParamNames", "Expected 'x' but got 'y'", ⟨1, 4⟩⟩] ∧
      ((porcelain (t.result config 0)).toList.splitOn '\n').map Entry.read? =
        t.entries.map some := by
  intro config parser t
  have hentries :
      t.entries = [⟨"a.js", "checkParamNames", "Expected 'x' but got 'y'", ⟨1, 4⟩⟩] := by
    decide +kernel
  have hfiles : Discovery.files (diskOfText misnamed) [⟨false, ["a.js"]⟩] =
      [⟨false, ["a.js"]⟩] := by
    decide +kernel
  have htext : Lint.textAt? (diskOfText misnamed) ⟨false, ["a.js"]⟩ = some misnamed := by
    decide +kernel
  have hquotes : ∀ s ∈ Source.subjects parser misnamed ".js",
      ∀ q ∈ Rule.quotes s .checkParamNames, IsOneLine q := by
    decide +kernel
  refine ⟨hentries, (porcelain_read_back ?_ 0).2.2 (by rw [hentries]; simp) ?_⟩
  · rw [hfiles]
    decide +kernel
  · rw [hfiles]
    rintro p hp text ht s hs r hr
    cases List.mem_singleton.mp hp
    cases htext.symm.trans ht
    obtain rfl : r = .checkParamNames := by simpa [config] using hr
    exact hquotes s hs

/-- A type that cannot be read is quoted as it is, over two lines: one finding, two lines. -/
theorem porcelain_broken_line :
    ∃ config, Config.resolve [(.str "checkTypes", .bool true)] = .ok config ∧
      let comment := "/** @param \x7ba\nb\x7d x */"
      let text := comment ++ "function f(x){}"
      let t := Lint.run (parserOf comment 1 7) (diskOfText text) config [⟨false, ["a.js"]⟩]
      t.entries.map (fun e => (e.path, e.location, e.rule)) =
          [("a.js", ⟨1, 4⟩, "checkTypes")] ∧
        porcelain (t.result config 0) =
          "a.js:1:4:checkTypes:Invalid type '\x7ba\nb\x7d' in @param" :=
  ⟨_, rfl, by decide +kernel, by decide +kernel⟩

end Report

end DocCheck
