import DocCheck.Command.Run
import DocCheck.Script.Program
import DocCheck.Yaml.Value

/-!
# The program

Reads the files that the arguments name, and writes what the command line says.
Of a directory only what a check can look at is read. Sources are parsed by
`Script.parser`, and configurations are read by `Yaml.load`: only here are a parser
and a reader chosen.
-/
namespace DocCheck.Program

def readYaml : Config.Reader := fun text =>
  match Yaml.load text with
  | .ok v => .ok (v.getD .null)
  | .error .malformed => .error (.malformed "it is not well formed")
  | .error _ => .error (.failed "a scalar has no value")

/-- A file with its contents; below a directory, files that are not taken are not read. -/
def readFile (here : String) (parts : List String) : IO Entry := do
  if parts.isEmpty || Discovery.isTaken parts then
    try return .file (some (← IO.FS.readBinFile here))
    catch _ => return .file none
  else return .file none

/-- The file or directory at a path, with all that is below. -/
partial def readEntry (here : String) (parts : List String) : IO (Option Entry) := do
  let path := (← IO.currentDir) / here
  if ← path.isDir then
    let mut found : List (String × Entry) := []
    for e in ← path.readDir do
      if !Discovery.excludedNames.contains e.fileName then
        match ← readEntry (here ++ "/" ++ e.fileName) (parts ++ [e.fileName]) with
        | some entry => found := (e.fileName, entry) :: found
        | none => pure ()
    return some (.directory found)
  else if ← path.pathExists then
    return some (← readFile here parts)
  else return none

/-- What the paths among some texts find. -/
def readDisk (texts : List String) : IO Disk := do
  let mut found : List (String × Entry) := []
  for text in texts do
    match ← readEntry text [] with
    | some entry => found := (text, entry) :: found
    | none => pure ()
  return Entry.diskOf found

/-- All texts among the arguments that may be paths, as they are written and as they are shown. -/
def pathTexts (arguments : List String) : List String :=
  let written := arguments.map fun a =>
    if Command.isOption a then (Command.splitOption a).2.getD "" else a
  let written := written.filter (· ≠ "")
  let shown := written.map fun a => toString (Path.ofString a)
  Config.defaultName :: (written ++ shown).eraseDups

def write (o : Command.Outcome) : IO UInt32 := do
  IO.print o.out
  IO.eprint o.err
  return UInt32.ofNat o.code

end DocCheck.Program

open DocCheck in
def main (arguments : List String) : IO UInt32 := do
  let start ← IO.monoNanosNow
  let disk ← Program.readDisk (Program.pathTexts arguments)
  let here := Path.ofString (← IO.currentDir).toString
  let plan ← IO.lazyPure fun _ => Command.plan Script.parser Program.readYaml disk here arguments
  let stop ← IO.monoNanosNow
  match plan with
  | .done outcome => Program.write outcome
  | .misuse => Program.write ⟨2, "", Command.usage ++ "\n"⟩
  | .failure _ => Program.write ⟨1, "", "Error: the configuration cannot be read\n"⟩
  | .report tally config format strict =>
    let elapsed := Float.ofNat (stop - start) / 1000000
    let isTerminal ← (← IO.getStdout).isTty
    Program.write (Command.finish tally config format strict elapsed isTerminal)
