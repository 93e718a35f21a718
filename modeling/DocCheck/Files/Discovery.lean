import DocCheck.Files.Tree
import DocCheck.Source.Basic

/-!
# The source files below some paths

A path of a file stands for the file, whatever it is called. A path of a directory
stands for the files below it that hold sources, in the order of their paths,
without those in directories of tools and of built files (SPEC_FULL 2, lint
orchestrator).
-/
namespace DocCheck.Discovery

/-- Names below which no sources are looked for. -/
def excludedNames : List String :=
  ["node_modules", ".git", "__pycache__", ".venv", "venv", "dist", "build"]

/-- A file at this path below a directory is taken. -/
def isTaken (parts : List String) : Bool :=
  !(parts.any excludedNames.contains) &&
    (Source.dialect? (Path.suffixOf (parts.getLast?.getD ""))).isSome

/-- One path does not come behind another one: names are compared one by one. -/
def notBehind (a b : List String × Entry) : Bool := !(b.1 < a.1)

/-- The source files below an entry, each as its path from there. -/
def below (e : Entry) : List (List String) :=
  ((e.descendants.mergeSort notBehind).filter fun (parts, d) => isTaken parts && d.isFile).map
    Prod.fst

/-- The source files that a path stands for; none if it finds nothing. -/
def filesAt (disk : Disk) (path : Path) : List Path :=
  match disk (toString path) with
  | .ok (.file _) => [path]
  | .ok e => (below e).map path.below
  | .error _ => []

/-- The source files that several paths stand for, one path after another. -/
def files (disk : Disk) (paths : List Path) : List Path := paths.flatMap (filesAt disk)

end DocCheck.Discovery
