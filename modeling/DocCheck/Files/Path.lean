/-!
# Paths

A path is a list of names; those that say nothing, the empty one and the dot,
are left out. A name may have a suffix, which says what a file holds.
-/
namespace DocCheck

@[ext] structure Path where
  /-- The path starts at the root of all files. -/
  absolute : Bool
  parts : List String
deriving DecidableEq, Repr

namespace Path

/-- The names in a path as it is written. -/
def names (s : String) : List String := (s.toList.splitOn '/').map String.ofList

def ofString (s : String) : Path :=
  ⟨s.toList.head? == some '/', (names s).filter fun n => n ≠ "" && n ≠ "."⟩

protected def toString (p : Path) : String :=
  let text := "/".intercalate p.parts
  if p.absolute then "/" ++ text else if p.parts.isEmpty then "." else text

instance : ToString Path := ⟨Path.toString⟩

def below (p : Path) (parts : List String) : Path := ⟨p.absolute, p.parts ++ parts⟩

/-- The characters of a name from its last dot on, if there is one. -/
def lastDot? (name : List Char) : Option (List Char) :=
  match name.reverse.span (· ≠ '.') with
  | (after, '.' :: _) => some ('.' :: after.reverse)
  | _ => none

/-- The suffix of a name: its last dot with what is behind it. A dot at the start or at the end
of a name makes none. -/
def suffixOf (name : String) : String :=
  match lastDot? name.toList with
  | some suffix =>
    if 1 < suffix.length ∧ suffix.length < name.length then String.ofList suffix else ""
  | none => ""

def suffix (p : Path) : String := suffixOf (p.parts.getLast?.getD "")

end Path

end DocCheck
