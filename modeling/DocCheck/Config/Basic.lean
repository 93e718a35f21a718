import DocCheck.Tag.Preset

/-!
# Configurations

A configuration says which rules are enabled and how. A rule is named by the
option that enables it (SPEC_FULL 3, Configuration).

Results:

* `RuleId.mem_all`: the list of all rules is complete.
-/
namespace DocCheck

/-- A rule, named by its option, in the order in which rules report. -/
inductive RuleId where
  | checkAnnotations
  | checkParamNames
  | requireParamTypes
  | checkRedundantParams
  | checkReturnTypes
  | checkRedundantReturns
  | requireReturnTypes
  | checkTypes
  | checkRedundantAccess
  | leadingUnderscoreAccess
  | enforceExistence
  | requireHyphenBeforeDescription
  | requireNewlineAfterDescription
  | disallowNewlineAfterDescription
  | requireDescriptionCompleteSentence
  | requireParamDescription
deriving DecidableEq, Repr

namespace RuleId

/-- All rules, in the order in which they report. -/
def all : List RuleId :=
  [checkAnnotations, checkParamNames, requireParamTypes, checkRedundantParams, checkReturnTypes,
    checkRedundantReturns, requireReturnTypes, checkTypes, checkRedundantAccess,
    leadingUnderscoreAccess, enforceExistence, requireHyphenBeforeDescription,
    requireNewlineAfterDescription, disallowNewlineAfterDescription,
    requireDescriptionCompleteSentence, requireParamDescription]

def name : RuleId → String
  | checkAnnotations => "checkAnnotations"
  | checkParamNames => "checkParamNames"
  | requireParamTypes => "requireParamTypes"
  | checkRedundantParams => "checkRedundantParams"
  | checkReturnTypes => "checkReturnTypes"
  | checkRedundantReturns => "checkRedundantReturns"
  | requireReturnTypes => "requireReturnTypes"
  | checkTypes => "checkTypes"
  | checkRedundantAccess => "checkRedundantAccess"
  | leadingUnderscoreAccess => "leadingUnderscoreAccess"
  | enforceExistence => "enforceExistence"
  | requireHyphenBeforeDescription => "requireHyphenBeforeDescription"
  | requireNewlineAfterDescription => "requireNewlineAfterDescription"
  | disallowNewlineAfterDescription => "disallowNewlineAfterDescription"
  | requireDescriptionCompleteSentence => "requireDescriptionCompleteSentence"
  | requireParamDescription => "requireParamDescription"

def ofName? (s : String) : Option RuleId := all.find? fun r => r.name = s

theorem mem_all (r : RuleId) : r ∈ all := by cases r <;> decide

end RuleId

/-- A way in which a rule can work other than its usual one. -/
inductive Mode where
  | strictNativeCase
  | capitalizedNativeCase
  | enforceLeadingUnderscore
  | enforceTrailingUnderscore
  | requirePrivate
  | requireProtected
  | exceptExports
deriving DecidableEq, Repr

def Mode.name : Mode → String
  | .strictNativeCase => "strictNativeCase"
  | .capitalizedNativeCase => "capitalizedNativeCase"
  | .enforceLeadingUnderscore => "enforceLeadingUnderscore"
  | .enforceTrailingUnderscore => "enforceTrailingUnderscore"
  | .requirePrivate => "private"
  | .requireProtected => "protected"
  | .exceptExports => "exceptExports"

/-- The modes of a rule, in alphabetical order of their names. -/
def RuleId.modes : RuleId → List Mode
  | .checkTypes => [.capitalizedNativeCase, .strictNativeCase]
  | .checkRedundantAccess => [.enforceLeadingUnderscore, .enforceTrailingUnderscore]
  | .leadingUnderscoreAccess => [.requirePrivate, .requireProtected]
  | .enforceExistence => [.exceptExports]
  | _ => []

inductive Choice where
  /-- In its usual way. -/
  | on
  | mode (m : Mode)
  /-- With the tags of a preset, or of all, and with tags of its own. -/
  | annotations (preset : Option Preset) (extra : TagTable)
deriving DecidableEq, Repr

/-- The tags that a choice allows: those of the preset, overridden by its own. -/
def Choice.tags : Choice → TagTable
  | .annotations preset extra =>
    extra.foldl (fun table (tag, r) => Assoc.put tag r table) (TagTable.ofPreset preset)
  | _ => TagTable.ofPreset none

/-- A configuration: how each rule works, if it is enabled. -/
@[ext] structure Config where
  get : RuleId → Option Choice

namespace Config

def allDisabled : Config := ⟨fun _ => none⟩

/-- The enabled rules with their choices, in the order in which rules report. -/
def enabled (c : Config) : List (RuleId × Choice) :=
  RuleId.all.filterMap fun r => (c.get r).map fun choice => (r, choice)

theorem mem_enabled {c : Config} {r : RuleId} {choice : Choice} :
    (r, choice) ∈ c.enabled ↔ c.get r = some choice := by
  simp only [enabled, List.mem_filterMap, Option.map_eq_some_iff, Prod.mk.injEq]
  constructor
  · rintro ⟨r', _, choice', h, rfl, rfl⟩; exact h
  · intro h; exact ⟨r, r.mem_all, choice, h, rfl, rfl⟩

end Config

end DocCheck
