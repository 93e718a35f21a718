import DocCheck.Lint.Basic
import DocCheck.Proofs.Files.Listing

/-!
# What a run finds

A run loses nothing and counts nothing twice. One round of its loop adds what is
found in the text of one file; so what the loop has gathered is told by the texts
among its files alone, one file after another. A file that cannot be read, or is no
text, adds to nothing but the list of those that were skipped; whether it is there
or not makes no difference to the result.

Results:

* `step_eq`: a round of the loop agrees with the check of the text of its file.
* `foldl_step`: what the loop has gathered is what is found in the texts among its files.
* `texts_files_without`: a tree without some files that are no texts holds the same texts.
* `run_lossless`: the result of a run, of a run over more paths, and without a file that is skipped.
-/
namespace DocCheck.Lint

/-! ## The texts among some files -/

def textAt? (disk : Disk) (path : Path) : Option String := (readText disk path).toOption

/-- The files among some paths that are texts, with what they say. -/
def texts (disk : Disk) (ps : List Path) : List (Path × String) :=
  ps.filterMap fun p => (textAt? disk p).map fun text => (p, text)

def skips (disk : Disk) (ps : List Path) : List (Path × Skip) :=
  ps.filterMap fun p =>
    match readText disk p with
    | .ok _ => none
    | .error cause => some (p, cause)

theorem texts_append (disk : Disk) (ps qs : List Path) :
    texts disk (ps ++ qs) = texts disk ps ++ texts disk qs :=
  List.filterMap_append

theorem skips_append (disk : Disk) (ps qs : List Path) :
    skips disk (ps ++ qs) = skips disk ps ++ skips disk qs :=
  List.filterMap_append

section

variable (parser : Source.Parser)

/-- What a report shows of the findings in a text. -/
def entriesIn (config : Config) (source : Path × String) : List Report.Entry :=
  (findings parser config source.2 source.1.suffix).map (Report.Entry.ofFinding (toString source.1))

def functionsIn (source : Path × String) : List Subject :=
  Source.subjects parser source.2 source.1.suffix

/-! ## The loop -/

theorem foldl_addFunction (config : Config) (path : Path) (functions : List Subject)
    (entries : List Report.Entry) :
    functions.foldl (addFunction config path) entries =
      entries ++ (functions.flatMap (Rule.evaluate config)).map
        (Report.Entry.ofFinding (toString path)) := by
  induction functions generalizing entries with
  | nil => simp
  | cons s functions ih =>
    rw [List.foldl_cons, ih, addFunction, List.flatMap_cons, List.map_append, List.append_assoc]

variable (disk : Disk) (config : Config)

/-- What is gathered once some more texts were checked and some more files were skipped. -/
def Tally.add (t : Tally) (sources : List (Path × String)) (skipped : List (Path × Skip)) : Tally :=
  ⟨t.entries ++ sources.flatMap (entriesIn parser config), t.scanned + sources.length,
    t.functions + (sources.flatMap (functionsIn parser)).length, t.skipped ++ skipped⟩

theorem Tally.add_add (t : Tally) (sources sources' : List (Path × String))
    (skipped skipped' : List (Path × Skip)) :
    (t.add parser config sources skipped).add parser config sources' skipped' =
      t.add parser config (sources ++ sources') (skipped ++ skipped') := by
  simp [Tally.add, Nat.add_assoc]

/-- A round of the loop adds what is found in the text of its file, if it has one. -/
theorem step_eq (t : Tally) (path : Path) :
    step parser disk config t path =
      t.add parser config (texts disk [path]) (skips disk [path]) := by
  unfold step functionsAt texts skips textAt?
  cases h : readText disk path with
  | error cause => simp [Except.map, Except.toOption, h, Tally.add]
  | ok text =>
    simp [Except.map, Except.toOption, h, Tally.add, foldl_addFunction, entriesIn, functionsIn,
      findings]

/-- The loop adds what is found in the texts among its files, one after another. -/
theorem foldl_step (t : Tally) (ps : List Path) :
    ps.foldl (step parser disk config) t =
      t.add parser config (texts disk ps) (skips disk ps) := by
  induction ps generalizing t with
  | nil => simp [texts, skips, Tally.add]
  | cons p ps ih =>
    have htexts : texts disk (p :: ps) = texts disk [p] ++ texts disk ps := texts_append disk [p] ps
    have hskips : skips disk (p :: ps) = skips disk [p] ++ skips disk ps := skips_append disk [p] ps
    rw [List.foldl_cons, ih, step_eq, Tally.add_add, htexts, hskips]

theorem files_eq (ps : List Path) :
    files parser disk config ps = Tally.empty.add parser config (texts disk ps) (skips disk ps) :=
  foldl_step parser disk config .empty ps

/-- Files with the same texts have the same result. -/
theorem result_files_congr {disk disk' : Disk} {ps qs : List Path}
    (h : texts disk ps = texts disk' qs) (elapsed : Float) :
    (files parser disk config ps).result config elapsed =
      (files parser disk' config qs).result config elapsed := by
  rw [files_eq, files_eq, h]
  rfl

end

/-! ## Trees without files that are no texts -/

/-- The file cannot be read, or its bytes are no text. -/
def IsNoText (contents : Contents) : Prop := contents.bind decode? = none

def textOf? : Option Entry → Option String
  | some (.file contents) => contents.bind decode?
  | _ => none

theorem textAt_eq (disk : Disk) (path : Path) :
    textAt? disk path = textOf? (disk (toString path)).toOption := by
  unfold textAt? readText
  cases disk (toString path) with
  | error m => rfl
  | ok e =>
    cases e with
    | directory es => rfl
    | file contents =>
      cases contents with
      | none => rfl
      | some bytes =>
        simp only [Except.toOption, textOf?, Option.bind_some]
        cases decode? bytes <;> rfl

theorem textOf_found {found found' : Option Entry}
    (h : Entry.Found (Entry.Without IsNoText) (Entry.IsLost IsNoText) found found') :
    textOf? found = textOf? found' := by
  cases h with
  | same h => cases h <;> rfl
  | gone hlost =>
    obtain ⟨bytes, rfl, hb⟩ := hlost
    exact hb
  | never => rfl

def filesOf (path : Path) : Option Entry → List Path
  | some (.file _) => [path]
  | some e => (Discovery.below e).map path.below
  | none => []

theorem filesAt_eq (disk : Disk) (path : Path) :
    Discovery.filesAt disk path = filesOf path (disk (toString path)).toOption := by
  unfold Discovery.filesAt
  cases disk (toString path) with
  | error m => rfl
  | ok e => cases e <;> rfl

theorem texts_eq_of_filter {disk : Disk} {ps qs : List Path}
    (h : ps.filter (fun p => (textAt? disk p).isSome) =
      qs.filter fun p => (textAt? disk p).isSome) :
    texts disk ps = texts disk qs := by
  have hfilter : ∀ ps : List Path,
      texts disk (ps.filter fun p => (textAt? disk p).isSome) = texts disk ps := by
    intro ps
    rw [texts, List.filterMap_filter]
    refine List.filterMap_congr fun p _ => ?_
    cases textAt? disk p <;> rfl
  rw [← hfilter ps, h, hfilter]

/-- Below a directory that a path finds, files that are no texts make no difference. -/
theorem texts_below_without {root e e' : Entry} {path : Path} (hroot : root.WellNamed)
    (hdisk : root.disk (toString path) = .ok e) (he : e.Without IsNoText e') :
    texts root.disk ((Discovery.below e).map path.below) =
      texts root.disk ((Discovery.below e').map path.below) := by
  refine texts_eq_of_filter ?_
  rw [List.filter_map, List.filter_map]
  refine congrArg _ (Discovery.filter_below he _ fun parts bytes hm hb => ?_)
  have htext : textAt? root.disk (path.below parts) = bytes.bind decode? := by
    rw [textAt_eq, Entry.disk_of_mem_descendants hroot hdisk hm]
    rfl
  rw [Function.comp_apply, htext, hb]
  rfl

section

variable {root root' : Entry} (hroot : root.WellNamed) (h : root.Without IsNoText root')
include hroot h

theorem textAt_without : textAt? root.disk = textAt? root'.disk := by
  funext path
  rw [textAt_eq, textAt_eq]
  exact textOf_found (h.found_disk hroot _)

theorem texts_filesAt_without (path : Path) :
    texts root.disk (Discovery.filesAt root.disk path) =
      texts root.disk (Discovery.filesAt root'.disk path) := by
  rw [filesAt_eq, filesAt_eq]
  have hfound := h.found_disk hroot (toString path)
  cases hdisk : root.disk (toString path) with
  | error m =>
    rw [hdisk] at hfound
    generalize (root'.disk (toString path)).toOption = found' at hfound ⊢
    cases hfound
    rfl
  | ok e =>
    have htext := textAt_eq root.disk path
    rw [hdisk] at hfound htext
    generalize (root'.disk (toString path)).toOption = found' at hfound ⊢
    cases hfound with
    | gone hlost =>
      obtain ⟨bytes, rfl, hb⟩ := hlost
      have hnone : textAt? root.disk path = none := htext.trans hb
      simp [Except.toOption, filesOf, texts, hnone]
    | same he =>
      cases he with
      | file bytes => rfl
      | directory hes => exact texts_below_without hroot hdisk (.directory hes)

/-- A tree without some files that are no texts holds the same texts. -/
theorem texts_files_without (paths : List Path) :
    texts root.disk (Discovery.files root.disk paths) =
      texts root'.disk (Discovery.files root'.disk paths) := by
  have hsame : texts root.disk = texts root'.disk := by
    unfold texts
    rw [textAt_without hroot h]
  rw [← hsame]
  induction paths with
  | nil => rfl
  | cons path paths ih =>
    rw [Discovery.files, Discovery.files, List.flatMap_cons, List.flatMap_cons, texts_append,
      texts_append, texts_filesAt_without hroot h, ← Discovery.files, ← Discovery.files, ih]

end

/-! ## The result of a run -/

theorem length_enabled (config : Config) :
    config.enabled.length = RuleId.all.countP fun r => (config.get r).isSome := by
  rw [Config.enabled, List.length_filterMap_eq_countP]
  simp

/-- The result of a run is told by the texts that it comes to: the findings in one after the
other, their number and that of the functions in them. A run over more paths adds to the result,
and a file that cannot be read or is no text makes no difference: if it is left out of the files,
or out of the tree that they come from. -/
theorem run_lossless (parser : Source.Parser) (config : Config) (elapsed : Float) :
    (∀ disk paths,
      let sources := texts disk (Discovery.files disk paths)
      (run parser disk config paths).result config elapsed =
        ⟨sources.flatMap (entriesIn parser config),
          (RuleId.all.countP fun r => (config.get r).isSome : Nat), sources.length,
          (sources.flatMap (functionsIn parser)).length, elapsed⟩) ∧
    (∀ disk ps qs,
      let first := (run parser disk config ps).result config elapsed
      let second := (run parser disk config qs).result config elapsed
      (run parser disk config (ps ++ qs)).result config elapsed =
        ⟨first.entries ++ second.entries, first.rulesEnabled,
          first.filesScanned + second.filesScanned,
          first.functionsChecked + second.functionsChecked, elapsed⟩) ∧
    (∀ disk ps p qs, textAt? disk p = none →
      (files parser disk config (ps ++ p :: qs)).result config elapsed =
        (files parser disk config (ps ++ qs)).result config elapsed) ∧
    ∀ root root' : Entry, root.WellNamed → root.Without IsNoText root' → ∀ paths,
      (run parser root.disk config paths).result config elapsed =
        (run parser root'.disk config paths).result config elapsed := by
  have hresult : ∀ disk ps, (files parser disk config ps).result config elapsed =
      ⟨(texts disk ps).flatMap (entriesIn parser config),
        (RuleId.all.countP fun r => (config.get r).isSome : Nat), (texts disk ps).length,
        ((texts disk ps).flatMap (functionsIn parser)).length, elapsed⟩ := by
    intro disk ps
    rw [files_eq, Tally.result, length_enabled]
    simp [Tally.add, Tally.empty]
  refine ⟨fun disk paths => hresult disk _, fun disk ps qs => ?_, fun disk ps p qs hp => ?_,
    fun root root' hroot h paths => ?_⟩
  · have hfiles : Discovery.files disk (ps ++ qs) =
        Discovery.files disk ps ++ Discovery.files disk qs := List.flatMap_append
    simp [run, hresult, hfiles, texts_append]
  · refine result_files_congr parser config ?_ elapsed
    rw [texts_append, texts_append, texts, texts, List.filterMap_cons, hp]
    rfl
  · exact result_files_congr parser config (texts_files_without hroot h paths) elapsed

/-- The node of `function f(x){}`, which starts at a row and column. -/
def functionNode (row column : Nat) : Node :=
  let leaf := fun (kind : String) (named : Bool) (role : Option String) (text : String)
    (n : Nat) => Node.mk kind named role text row (column + n) []
  .mk "function_declaration" true none "function f(x){}" row column
    [leaf "function" false none "function" 0, leaf "identifier" true (some "name") "f" 9,
      .mk "formal_parameters" true (some "parameters") "(x)" row (column + 10)
        [leaf "(" false none "(" 10,
          .mk "required_parameter" true none "x" row (column + 11)
            [leaf "identifier" true (some "pattern") "x" 11],
          leaf ")" false none ")" 12],
      .mk "statement_block" true (some "body") "{}" row (column + 13)
        [leaf "\x7b" false none "\x7b" 13, leaf "\x7d" false none "\x7d" 14]]

/-- Of three files in a directory one is no text and one cannot be read: they are skipped, and the
run finds what it finds without these files. -/
theorem run_lossless_skipping :
    let config : Config := ⟨fun r => if r = .enforceExistence then some .on else none⟩
    let text := "function f(x){}"
    let parser : Source.Parser := fun _ => some fun text =>
      .mk "program" true none text 0 0 [functionNode 0 0]
    let source : String × Entry := ("b.js", .file (some text.toUTF8))
    let root : Entry :=
      .directory [("a.js", .file (some ⟨#[0xe9]⟩)), source, ("c.js", .file none)]
    let root' : Entry := .directory [source]
    let t := run parser root.disk config [⟨false, []⟩]
    t.entries = [⟨"b.js", "enforceExistence", "Missing doc-comment for 'f'", ⟨1, 0⟩⟩] ∧
      t.skipped = [(⟨false, ["a.js"]⟩, .noText), (⟨false, ["c.js"]⟩, .unreadable)] ∧
      (files parser root.disk config [⟨false, ["a.js"]⟩, ⟨false, ["b.js"]⟩]).result config 0 =
        (files parser root.disk config [⟨false, ["b.js"]⟩]).result config 0 ∧
      t.result config 0 = (run parser root'.disk config [⟨false, []⟩]).result config 0 := by
  intro config text parser source root root' t
  have hsorted : root.descendants.Pairwise fun a b => Discovery.notBehind a b = true := by
    decide +kernel
  have hbelow : Discovery.below root = [["a.js"], ["b.js"], ["c.js"]] := by
    rw [Discovery.below, List.mergeSort_of_pairwise hsorted]
    decide +kernel
  have hfiles : Discovery.files root.disk [⟨false, []⟩] =
      [⟨false, ["a.js"]⟩, ⟨false, ["b.js"]⟩, ⟨false, ["c.js"]⟩] := by
    show (Discovery.below root).map (Path.below ⟨false, []⟩) ++ [] = _
    rw [hbelow]
    rfl
  have ht : t = files parser root.disk config
      [⟨false, ["a.js"]⟩, ⟨false, ["b.js"]⟩, ⟨false, ["c.js"]⟩] := by
    rw [← hfiles]
    rfl
  have hundecodable : (some ⟨#[0xe9]⟩ : Contents).bind decode? = none := by
    decide +kernel
  have hnone : textAt? root.disk ⟨false, ["a.js"]⟩ = none := by
    decide +kernel
  have hroot : root.WellNamed :=
    .directory (by decide) (by decide) (by simp [source, Entry.WellNamed.file])
  have hwithout : root.Without IsNoText root' :=
    .directory (.lose _ hundecodable (.keep _ (.file _) (.lose _ rfl .nil)))
  obtain ⟨-, -, hskip, htree⟩ := run_lossless parser config 0
  refine ⟨?_, ?_, hskip root.disk [] _ [⟨false, ["b.js"]⟩] hnone,
    htree root root' hroot hwithout _⟩
  · rw [ht]
    decide +kernel
  · rw [ht]
    decide +kernel

end DocCheck.Lint
