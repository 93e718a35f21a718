import DocCheck.Command.Arguments
import DocCheck.Command.Table
import DocCheck.Config.File
import DocCheck.Lint.Basic
import DocCheck.Report.Porcelain
import DocCheck.Report.Rich
import DocCheck.Report.Structured

/-!
# The command line

What the program writes and how it exits. It exits with 2 when its arguments or
its configuration cannot be used, and with 1 when findings are not accepted
(SPEC_FULL 6, command line).
-/
namespace DocCheck.Command

structure Outcome where
  code : Nat
  out : String
  err : String
deriving DecidableEq, Repr

/-- What is left to do once everything is read. -/
inductive Plan where
  | done (outcome : Outcome)
  /-- The arguments are misused. -/
  | misuse
  /-- The configuration cannot be read, and the program fails. -/
  | failure (e : Config.FileError)
  | report (tally : Lint.Tally) (config : Config) (format : Option Format) (strict : Bool)

def versionLine : String := "jsdoclint, version 0.3.0"

def usage : String :=
  "Usage: jsdoclint [-v] [--version] lint [--config FILE] [--format rich|json|porcelain] " ++
    "[--strict] PATHS...\n       jsdoclint [-v] presets [NAME]"

def success (lines : List String) : Plan :=
  .done ⟨0, String.join (lines.map fun l => l ++ "\n"), ""⟩

def error (message : String) : Plan := .done ⟨2, "", "Error: " ++ message ++ "\n"⟩

def unknownPreset (name : String) : String :=
  "unknown preset '" ++ name ++ "', must be one of " ++
    Config.nameList (Preset.all.map Preset.name)

section

variable (parser : Source.Parser) (reader : Config.Reader)

/-- What is to be done for a request; `directory` is where the program runs. -/
def Request.plan (disk : Disk) (directory : Path) : Request → Plan
  | .version => success [versionLine]
  | .help => success [usage]
  | .presets none => success presetsTable
  | .presets (some name) =>
    match Preset.ofName? name with
    | some p => success (tagsTable p)
    | none => error (unknownPreset name)
  | .lint config format strict paths =>
    match Config.find reader disk config directory with
    | .ok config => .report (Lint.run parser disk config paths) config format strict
    | .error e =>
      match e.message? with
      | some message => error message
      | none => .failure e

def plan (disk : Disk) (directory : Path) (arguments : List String) : Plan :=
  match request disk arguments with
  | some r => r.plan parser reader disk directory
  | none => .misuse

end

def Format.render : Format → Report.Result → String
  | .rich, r => Report.rich r
  | .json, r => Report.structured r
  | .porcelain, r => Report.porcelain r

/-- The end of a check that took some milliseconds. Without a format, people get the report for
people and programs the one for machines. An empty report is not written. -/
def finish (tally : Lint.Tally) (config : Config) (format : Option Format) (strict : Bool)
    (elapsed : Float) (isTerminal : Bool) : Outcome :=
  let format := format.getD (if isTerminal then .rich else .porcelain)
  let text := format.render (tally.result config elapsed)
  ⟨if strict && !tally.entries.isEmpty then 1 else 0, if text.isEmpty then "" else text ++ "\n", ""⟩

end DocCheck.Command
