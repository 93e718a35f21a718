import DocCheck.Assoc

/-!
# Tables of known tags

A table says for each tag that it knows whether a value may, must or must not
follow the keyword. Three tables cover the common documentation tools; where they
are taken together and disagree on a tag, any value goes (SPEC_FULL 4.3,
TagSchema).
-/
namespace DocCheck

/-- What may follow the keyword of a tag. -/
inductive Requirement where
  | noValue | anyValue | requiredValue
deriving DecidableEq, Repr

def Requirement.name : Requirement → String
  | .noValue => "no-value"
  | .anyValue => "any-value"
  | .requiredValue => "required-value"

/-- The tags that are known, with what may follow each. -/
abbrev TagTable := List (String × Requirement)

/-- The tables that come with the checker. -/
inductive Preset where
  | closureCompiler | jsdoc3 | jsduck5
deriving DecidableEq, Repr

namespace Preset

/-- All presets, in alphabetical order of their names. -/
def all : List Preset := [closureCompiler, jsdoc3, jsduck5]

def name : Preset → String
  | closureCompiler => "closurecompiler"
  | jsdoc3 => "jsdoc3"
  | jsduck5 => "jsduck5"

def ofName? (s : String) : Option Preset := all.find? fun p => p.name = s

def closureCompilerTags : TagTable :=
  [("author", .requiredValue), ("code", .anyValue), ("const", .anyValue),
   ("constant", .anyValue), ("constructor", .noValue), ("define", .requiredValue),
   ("deprecated", .anyValue), ("dict", .noValue), ("enum", .anyValue), ("export", .anyValue),
   ("expose", .noValue), ("extends", .requiredValue), ("externs", .noValue),
   ("fileoverview", .anyValue), ("final", .noValue), ("implements", .requiredValue),
   ("inheritdoc", .noValue), ("interface", .noValue), ("lends", .requiredValue),
   ("license", .anyValue), ("nocollapse", .noValue), ("nocompile", .noValue),
   ("nosideeffects", .noValue), ("override", .noValue), ("package", .anyValue),
   ("param", .requiredValue), ("preserve", .anyValue), ("private", .anyValue),
   ("protected", .anyValue), ("public", .anyValue), ("record", .noValue), ("return", .anyValue),
   ("see", .requiredValue), ("struct", .noValue), ("suppress", .requiredValue),
   ("template", .requiredValue), ("this", .requiredValue), ("throws", .anyValue),
   ("type", .requiredValue), ("typedef", .requiredValue), ("unrestricted", .noValue)]

def jsdoc3Tags : TagTable :=
  [("abstract", .noValue), ("access", .requiredValue), ("alias", .requiredValue),
   ("arg", .requiredValue), ("argument", .requiredValue), ("augments", .requiredValue),
   ("author", .requiredValue), ("borrows", .requiredValue), ("callback", .requiredValue),
   ("class", .anyValue), ("classdesc", .requiredValue), ("const", .anyValue),
   ("constant", .anyValue), ("constructor", .anyValue), ("constructs", .anyValue),
   ("copyright", .requiredValue), ("default", .anyValue), ("defaultvalue", .anyValue),
   ("deprecated", .anyValue), ("desc", .requiredValue), ("description", .requiredValue),
   ("emits", .requiredValue), ("enum", .anyValue), ("event", .requiredValue),
   ("example", .requiredValue), ("exception", .anyValue), ("exports", .requiredValue),
   ("extends", .requiredValue), ("external", .requiredValue), ("file", .anyValue),
   ("fileoverview", .anyValue), ("fires", .requiredValue), ("func", .anyValue),
   ("function", .anyValue), ("global", .noValue), ("host", .requiredValue), ("ignore", .noValue),
   ("implements", .requiredValue), ("inheritdoc", .noValue), ("inner", .noValue),
   ("instance", .noValue), ("interface", .anyValue), ("kind", .requiredValue),
   ("lends", .requiredValue), ("license", .requiredValue), ("listens", .requiredValue),
   ("member", .anyValue), ("memberof", .requiredValue), ("method", .anyValue),
   ("mixes", .requiredValue), ("mixin", .anyValue), ("module", .anyValue),
   ("name", .requiredValue), ("namespace", .anyValue), ("override", .noValue),
   ("overview", .anyValue), ("package", .anyValue), ("param", .requiredValue),
   ("private", .anyValue), ("prop", .requiredValue), ("property", .requiredValue),
   ("protected", .anyValue), ("public", .noValue), ("readonly", .noValue),
   ("requires", .requiredValue), ("return", .anyValue), ("returns", .anyValue),
   ("see", .requiredValue), ("since", .requiredValue), ("static", .noValue),
   ("summary", .requiredValue), ("this", .requiredValue), ("throws", .anyValue),
   ("todo", .requiredValue), ("tutorial", .requiredValue), ("type", .requiredValue),
   ("typedef", .requiredValue), ("var", .anyValue), ("variation", .requiredValue),
   ("version", .requiredValue), ("virtual", .noValue), ("yield", .anyValue),
   ("yields", .anyValue)]

def jsduck5Tags : TagTable :=
  [("abstract", .noValue), ("accessor", .noValue), ("alias", .requiredValue),
   ("alternateclassname", .requiredValue), ("aside", .requiredValue), ("author", .requiredValue),
   ("cfg", .requiredValue), ("chainable", .noValue), ("class", .requiredValue),
   ("constructor", .noValue), ("deprecated", .anyValue), ("docauthor", .requiredValue),
   ("enum", .anyValue), ("event", .requiredValue), ("evented", .noValue), ("example", .anyValue),
   ("experimental", .anyValue), ("extends", .requiredValue), ("ftype", .requiredValue),
   ("hide", .noValue), ("ignore", .noValue), ("inheritable", .noValue),
   ("inheritdoc", .anyValue), ("localdoc", .requiredValue), ("markdown", .noValue),
   ("member", .requiredValue), ("method", .anyValue), ("mixins", .requiredValue),
   ("new", .noValue), ("override", .anyValue), ("param", .requiredValue),
   ("preventable", .anyValue), ("private", .anyValue), ("property", .requiredValue),
   ("protected", .anyValue), ("ptype", .requiredValue), ("readonly", .noValue),
   ("removed", .anyValue), ("requires", .requiredValue), ("return", .anyValue),
   ("since", .requiredValue), ("singleton", .noValue), ("static", .noValue),
   ("template", .noValue), ("throws", .anyValue), ("type", .requiredValue),
   ("uses", .requiredValue), ("xtype", .requiredValue)]

def tags : Preset → TagTable
  | closureCompiler => closureCompilerTags
  | jsdoc3 => jsdoc3Tags
  | jsduck5 => jsduck5Tags

end Preset

namespace TagTable

/-- Two tables agree on a requirement, or any value goes. -/
def relax : Option Requirement → Requirement → Requirement
  | none, r => r
  | some r', r => if r' = r then r else .anyValue

/-- Adds the tags of a table to those collected before. -/
def absorb (collected table : TagTable) : TagTable :=
  table.foldl (fun acc (tag, r) => Assoc.put tag (relax (Assoc.lookup tag acc) r) acc) collected

/-- The tags of several tables taken together. -/
def combine (tables : List TagTable) : TagTable := tables.foldl absorb []

/-- The tags of all presets taken together. -/
def everyPreset : TagTable := combine (Preset.all.map Preset.tags)

/-- The tags that a choice of preset allows; without a choice, those of all presets. -/
def ofPreset : Option Preset → TagTable
  | none => everyPreset
  | some p => p.tags

end TagTable

end DocCheck
