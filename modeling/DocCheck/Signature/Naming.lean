import DocCheck.Signature.Basic
import DocCheck.Text.Blank

/-!
# What names say

An underscore at the start or end of a name marks a function as private, and an
assignment to `module.exports` or below it is an export (SPEC_FULL 2, host
adapter).
-/
namespace DocCheck.Naming

/-- Well-known names whose underscores say nothing about access. -/
def wellKnown : List String :=
  ["__filename", "__dirname", "__proto__", "__defineGetter__", "__defineSetter__",
    "__lookupGetter__", "__lookupSetter__", "__noSuchMethod__", "__iterator__", "super_",
    "__constructor"]

/-- The access and the underscore convention of a name. -/
def classify (name : String) : Access × Underscore :=
  if name.isEmpty ∨ name ∈ wellKnown then (.unknown, .none)
  else if name.toList.head? = some '_' then (.privately, .leading)
  else if name.toList.getLast? = some '_' then (.privately, .trailing)
  else (.publicly, .none)

/-- An assignment to this target is an export; white space in the target does not count. -/
def isExportTarget (target : String) : Bool :=
  let compact := target.toList.filter fun c => !Text.isBlank c
  compact == "module.exports".toList || "module.exports.".toList.isPrefixOf compact ||
    "exports.".toList.isPrefixOf compact

end DocCheck.Naming
