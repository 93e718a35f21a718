import DocCheck.Rule.Basic

/-!
# Rules on tags and the spelling of types

Tags have to be known and to have a value where they need one, and native types
have to be spelled in one way (SPEC_FULL 4.3 and 4.5).
-/
namespace DocCheck.Rule

/-! ## Tags -/

/-- What is wrong with a tag under a table of known tags. -/
def tagProblem? (table : TagTable) (t : Tag) : Option String :=
  match Assoc.lookup t.keyword table with
  | none => some ("Unknown tag @" ++ t.keyword)
  | some .noValue =>
    if t.valueText.isEmpty then none
    else some ("Tag @" ++ t.keyword ++ " does not accept a value")
  | some .requiredValue =>
    if t.valueText.isEmpty then some ("Tag @" ++ t.keyword ++ " requires a value") else none
  | some .anyValue => none

/-- Every tag has to be known and to have a value if and only if it takes one. -/
def checkAnnotations (choice : Choice) (s : Subject) : List Finding :=
  s.tags.filterMap fun t =>
    (tagProblem? choice.tags t).map fun message => ⟨.checkAnnotations, message, t.location⟩

/-! ## Types -/

def typeCheckedTags : List String :=
  ["typedef", "type", "param", "return", "returns", "enum", "var", "prop", "property", "arg",
    "argument", "cfg", "lends", "extends", "implements", "define"]

/-- The spelling of native types that is asked for, by the name in lower case. -/
def strictSpelling : List (String × String) :=
  [("boolean", "boolean"), ("number", "number"), ("string", "string"), ("object", "Object"),
    ("array", "Array"), ("date", "Date"), ("regexp", "RegExp")]

def capitalizedNatives : List String := strictSpelling.map Prod.fst ++ ["function"]

def capitalized (name : String) : String :=
  match name.toList with
  | c :: r => String.ofList (c.toUpper :: r)
  | [] => ""

/-- The spelling that a name should have, if it is not the one that it has. -/
def expectedSpelling? (choice : Choice) (name : String) : Option String :=
  match choice with
  | .mode .strictNativeCase =>
    match Assoc.lookup (Text.lower name) strictSpelling with
    | some expected => if name = expected then none else some expected
    | none => none
  | .mode .capitalizedNativeCase =>
    if Text.lower name ∈ capitalizedNatives ∧ ¬ name.toList.head?.any Char.isUpper then
      some (capitalized name)
    else none
  | _ => none

/-- What is wrong with a type: that it cannot be read, or the spelling of names in it. -/
def typeProblems (choice : Choice) (keyword : String) : TypeExpr → List String
  | .unknown raw => ["Invalid type '" ++ raw ++ "' in @" ++ keyword]
  | type =>
    type.names.filterMap fun name =>
      (expectedSpelling? choice name).map fun expected =>
        "Invalid case of type '" ++ name ++ "', expected '" ++ expected ++ "'"

/-- Types have to be readable, and their native names to be spelled as asked for. -/
def checkTypes (choice : Choice) (s : Subject) : List Finding :=
  s.tags.flatMap fun t =>
    match t.type with
    | none => []
    | some type =>
      if typeCheckedTags.contains t.keyword then
        (typeProblems choice t.keyword type).map fun message => ⟨.checkTypes, message, t.location⟩
      else []

end DocCheck.Rule
