import DocCheck.Rule.Basic

/-!
# Rules on parameters

Tags of parameters are compared with the declared parameters. A dotted name such
as `options.timeout` describes a property of a parameter that is already
described, and takes no position of its own (SPEC_FULL 4.4).
-/
namespace DocCheck.Rule

/-! ## Positions -/

/-- What stands before the first dot of a dotted name. -/
def ownerOf? (name : String) : Option String :=
  if name.toList.contains '.' then some (String.ofList (name.toList.takeWhile (· ≠ '.')))
  else none

/-- The tags that take a position; `described` are the names of those before, of which an empty
one is none. -/
def positionalFrom (described : List String) : List Tag → List Tag
  | [] => []
  | t :: ts =>
    match t.paramName with
    | none => t :: positionalFrom described ts
    | some name =>
      match ownerOf? name with
      | some owner =>
        if described.contains owner then positionalFrom described ts
        else t :: positionalFrom (name :: described) ts
      | none => t :: positionalFrom (if name = "" then described else name :: described) ts

/-- The tags of parameters that take a position, in order. -/
def positional (s : Subject) : List Tag := positionalFrom [] s.paramTags

/-! ## Rules -/

def paramNameProblem? (params : List Param) (index : Nat) (t : Tag) : Option String :=
  match t.paramName, params[index]? with
  | none, _ => some "Missing param name"
  | some _, none =>
    some ("Param " ++ t.label ++ " is documented at position " ++ toString (index + 1) ++
      " but the function takes " ++ toString params.length ++ " parameter(s)")
  | some name, some p =>
    if name = p.name then none
    else some ("Expected '" ++ p.name ++ "' but got " ++ t.label)

/-- The tag at each position has to name the parameter there. -/
def checkParamNames (s : Subject) : List Finding :=
  (positional s).zipIdx.filterMap fun (t, index) =>
    (paramNameProblem? s.signature.params index t).map fun message =>
      ⟨.checkParamNames, message, t.location⟩

/-- A described parameter has to be declared, and its position has to exist. -/
def checkRedundantParams (s : Subject) : List Finding :=
  (positional s).zipIdx.filterMap fun (t, index) =>
    match t.paramName with
    | none => none
    | some name =>
      if name ∉ s.signature.params.map Param.name ∨ s.signature.params.length ≤ index then
        some ⟨.checkRedundantParams, "Found redundant param " ++ t.label, t.location⟩
      else none

/-- Every parameter has to have a type that can be read. -/
def requireParamTypes (s : Subject) : List Finding :=
  s.paramTags.filterMap fun t =>
    if t.type.isNone ∨ t.hasUnknownType then
      some ⟨.requireParamTypes, "Missing type for param " ++ t.label, t.location⟩
    else none

/-- Every parameter has to have a description. -/
def requireParamDescription (s : Subject) : List Finding :=
  s.paramTags.filterMap fun t =>
    if t.description.all String.isEmpty then
      some ⟨.requireParamDescription, "Missing description for param " ++ t.label, t.location⟩
    else none

def hasHyphen (t : Tag) : Bool :=
  match t.description with
  | some d => "- ".toList.isPrefixOf d.toList
  | none => false

/-- The description of every parameter has to follow a hyphen. -/
def requireHyphenBeforeDescription (s : Subject) : List Finding :=
  s.paramTags.filterMap fun t =>
    if hasHyphen t then none
    else
      some ⟨.requireHyphenBeforeDescription,
        "Missing hyphen before description of param " ++ t.label, t.location⟩

end DocCheck.Rule
