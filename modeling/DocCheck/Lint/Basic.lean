import DocCheck.Files.Discovery
import DocCheck.Report.Basic
import DocCheck.Rule.Evaluate
import DocCheck.Text.Newline

/-!
# Checking files

All rules are run over every function of every file, in a loop that gathers the
findings and counts files and functions. A file that cannot be read, or is no text,
is skipped with a warning (SPEC_FULL 7). The parser of the sources is given from
outside.

Limitations: of a warning the file and the cause are kept, not its words; a run reads
one state of the files.
-/
namespace DocCheck.Lint

/-- The text that bytes encode, with line feeds for all line ends. -/
def decode? (bytes : ByteArray) : Option String :=
  (String.fromUTF8? bytes).map fun s => String.ofList (Text.unifyNewlines s.toList)

/-- Why a file is skipped. -/
inductive Skip where
  | unreadable
  | noText
deriving DecidableEq, Repr

def readText (disk : Disk) (path : Path) : Except Skip String :=
  match disk (toString path) with
  | .ok (.file (some bytes)) =>
    match decode? bytes with
    | some text => .ok text
    | none => .error .noText
  | _ => .error .unreadable

/-- What a run has gathered. -/
@[ext] structure Tally where
  entries : List Report.Entry
  scanned : Nat
  functions : Nat
  skipped : List (Path × Skip)

def Tally.empty : Tally := ⟨[], 0, 0, []⟩

section

variable (parser : Source.Parser)

/-- The findings in a source text, in the order of the source. -/
def findings (config : Config) (text suffix : String) : List Finding :=
  (Source.subjects parser text suffix).flatMap (Rule.evaluate config)

/-- The functions in the file at a path. -/
def functionsAt (disk : Disk) (path : Path) : Except Skip (List Subject) :=
  (readText disk path).map fun text => Source.subjects parser text path.suffix

/-- The entries with those of one more function of the file at a path. -/
def addFunction (config : Config) (path : Path) (entries : List Report.Entry) (s : Subject) :
    List Report.Entry :=
  entries ++ (Rule.evaluate config s).map (Report.Entry.ofFinding (toString path))

/-- One round of the loop over files. -/
def step (disk : Disk) (config : Config) (t : Tally) (path : Path) : Tally :=
  match functionsAt parser disk path with
  | .error cause => { t with skipped := t.skipped ++ [(path, cause)] }
  | .ok functions =>
    { t with
      entries := functions.foldl (addFunction config path) t.entries
      scanned := t.scanned + 1
      functions := t.functions + functions.length }

/-- What is found in files. -/
def files (disk : Disk) (config : Config) (ps : List Path) : Tally :=
  ps.foldl (step parser disk config) .empty

/-- What is found in the source files that paths stand for. -/
def run (disk : Disk) (config : Config) (paths : List Path) : Tally :=
  files parser disk config (Discovery.files disk paths)

end

/-- The result of a run that took some milliseconds. -/
def Tally.result (t : Tally) (config : Config) (elapsed : Float) : Report.Result :=
  ⟨t.entries, config.enabled.length, t.scanned, t.functions, elapsed⟩

end DocCheck.Lint
