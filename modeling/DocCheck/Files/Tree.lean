import DocCheck.Files.Path

/-!
# Files and directories

A tree of files, in which paths as they are written are looked up. A path that
leads out of the tree finds nothing.

Limitations: there are no links.
-/
namespace DocCheck

/-- What reading a file gives; nothing if it cannot be read. -/
abbrev Contents := Option ByteArray

inductive Entry where
  | file (contents : Contents)
  | directory (entries : List (String × Entry))
deriving Inhabited

inductive Missing where
  /-- There is no such entry. -/
  | absent
  /-- A file stands where a directory should be. -/
  | throughFile
deriving DecidableEq, Repr

abbrev Disk := String → Except Missing Entry

namespace Entry

def child? (name : String) : List (String × Entry) → Option Entry
  | [] => none
  | (n, e) :: rest => if n = name then some e else child? name rest

/-- Goes down a path from an entry; `above` are the directories around it. -/
def follow (above : List Entry) : Entry → List String → Except Missing Entry
  | e, [] => .ok e
  | .file _, _ :: _ => .error .throughFile
  | .directory entries, name :: names =>
    if name = "" ∨ name = "." then follow above (.directory entries) names
    else if name = ".." then
      match above with
      | [] => .error .absent
      | parent :: above => follow above parent names
    else
      match child? name entries with
      | none => .error .absent
      | some e => follow (.directory entries :: above) e names

/-- What paths find that start at a directory. -/
def disk (root : Entry) : Disk := fun path =>
  if path = "" ∨ path.toList.head? = some '/' then .error .absent
  else follow [] root (Path.names path)

/-- The names that lead from one path to another, if it lies below; all that is relative lies
below the dot. -/
def namesBelow? (start text : String) : Option (List String) :=
  if start = "." ∧ text.toList.head? ≠ some '/' then some (Path.names text)
  else if (Path.names start).isPrefixOf (Path.names text) then
    some ((Path.names text).drop (Path.names start).length)
  else none

/-- What paths find among entries that were read, each for a path as it is written, and below
those entries. -/
def diskOf (found : List (String × Entry)) : Disk := fun text =>
  match child? text found with
  | some e => .ok e
  | none =>
    let below := found.findSome? fun (start, e) => do
      (follow [] e (← namesBelow? start text)).toOption
    match below with
    | some e => .ok e
    | none => .error .absent

mutual

/-- All that lies below an entry, each with its path from there. -/
def descendants : Entry → List (List String × Entry)
  | .file _ => []
  | .directory entries => descendantsOf entries

/-- The entries of a directory and all that lies below them. -/
def descendantsOf : List (String × Entry) → List (List String × Entry)
  | [] => []
  | (name, e) :: rest =>
    ([name], e) :: (descendants e).map (fun (parts, d) => (name :: parts, d)) ++
      descendantsOf rest

end

def isFile : Entry → Bool
  | .file _ => true
  | .directory _ => false

end Entry

end DocCheck
