import DocCheck.Files.Tree

/-!
# The arguments of the command line

Options start with a dash; two dashes alone end them. The value of a long option
stands behind an equals sign or is the next argument. Of an option that is given
twice the last one counts (SPEC_FULL 6, command line).
-/
namespace DocCheck.Command

/-- The form of a report. -/
inductive Format where
  | rich | json | porcelain
deriving DecidableEq, Repr

def Format.ofName? : String → Option Format
  | "rich" => some .rich
  | "json" => some .json
  | "porcelain" => some .porcelain
  | _ => none

/-- The options and paths of a check, as they are written. -/
structure LintArguments where
  config : Option String
  format : Option String
  strict : Bool
  help : Bool
  paths : List String

inductive Request where
  | version
  | help
  | lint (config : Option Path) (format : Option Format) (strict : Bool) (paths : List Path)
  | presets (name : Option String)

/-- The argument is an option; a lone dash is none. -/
def isOption (argument : String) : Bool :=
  argument.toList.head? == some '-' && argument != "-"

/-- The name of an option, and the value behind its equals sign. -/
def splitOption (argument : String) : String × Option String :=
  match argument.toList.span (· ≠ '=') with
  | (name, '=' :: value) => (String.ofList name, some (String.ofList value))
  | (name, _) => (String.ofList name, none)

/-! ## Options before the command -/

/-- The options before the command: what is asked for by one of them, and the arguments behind
them. Nothing if an option is not known. -/
def leadingOptions (asked : Option Request) :
    List String → Option (Option Request × List String)
  | [] => some (asked, [])
  | a :: rest =>
    if a = "--" then some (asked, rest)
    else if !isOption a then some (asked, a :: rest)
    else if a = "--version" then leadingOptions (asked.or (some .version)) rest
    else if a = "--help" then leadingOptions (asked.or (some .help)) rest
    else if a = "--verbose" || a.toList.tail.all (· == 'v') then leadingOptions asked rest
    else none

/-! ## Arguments of a check -/

/-- Adds an option to the arguments of a check. The value of an option may be the first of the
arguments behind; those that are left are given back. -/
def LintArguments.addOption (done : LintArguments) (argument : String) (rest : List String) :
    Option (LintArguments × List String) :=
  match splitOption argument, rest with
  | ("--config", some v), rest => some ({ done with config := some v }, rest)
  | ("--config", none), v :: rest => some ({ done with config := some v }, rest)
  | ("--format", some v), rest => some ({ done with format := some v }, rest)
  | ("--format", none), v :: rest => some ({ done with format := some v }, rest)
  | ("--strict", none), rest => some ({ done with strict := true }, rest)
  | ("--help", none), rest => some ({ done with help := true }, rest)
  | _, _ => none

/-- The arguments of a check. The first argument bounds the steps. -/
def lintArguments (done : LintArguments) : Nat → List String → Option LintArguments
  | 0, _ => none
  | _ + 1, [] => some done
  | n + 1, a :: rest =>
    if a = "--" then some { done with paths := done.paths ++ rest }
    else if isOption a then
      match done.addOption a rest with
      | some (done, rest) => lintArguments done n rest
      | none => none
    else lintArguments { done with paths := done.paths ++ [a] } n rest

/-- The path of a configuration must find a file. -/
def configPath? (disk : Disk) (written : String) : Option Path :=
  match disk written with
  | .ok (.file _) => some (Path.ofString written)
  | _ => none

/-- A path to check must find something. -/
def sourcePath? (disk : Disk) (written : String) : Option Path :=
  match disk written with
  | .ok _ => some (Path.ofString written)
  | .error _ => none

/-- What the arguments of a check ask for. There must be a path. -/
def lintRequest (disk : Disk) (done : LintArguments) : Option Request := do
  if done.help then some .help
  else
    let config ←
      match done.config with
      | some written => (configPath? disk written).map some
      | none => some none
    let format ←
      match done.format with
      | some name => (Format.ofName? name).map some
      | none => some none
    let paths ← done.paths.mapM (sourcePath? disk)
    if paths.isEmpty then none else some (.lint config format done.strict paths)

/-! ## Arguments of the list of presets -/

/-- What the arguments behind `presets` ask for: `names` came before. -/
def presetsRequest (help : Bool) (names : List String) : List String → Option Request
  | [] =>
    if help then some .help
    else if 1 < names.length then none
    else some (.presets names.head?)
  | a :: rest =>
    if a = "--" then presetsEnd help (names ++ rest)
    else if a = "--help" then presetsRequest true names rest
    else if isOption a then none
    else presetsRequest help (names ++ [a]) rest
where
  /-- What the names ask for. -/
  presetsEnd (help : Bool) (names : List String) : Option Request :=
    if help then some .help
    else if 1 < names.length then none
    else some (.presets names.head?)

/-- What the arguments ask for; nothing if they are misused. -/
def request (disk : Disk) (arguments : List String) : Option Request := do
  match ← leadingOptions none arguments with
  | (some asked, _) => some asked
  | (none, "lint" :: rest) =>
    lintRequest disk (← lintArguments ⟨none, none, false, false, []⟩ (rest.length + 1) rest)
  | (none, "presets" :: rest) => presetsRequest false [] rest
  | _ => none

end DocCheck.Command
