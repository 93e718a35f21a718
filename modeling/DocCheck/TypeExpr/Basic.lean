import DocCheck.Assoc

/-!
# Type expressions

The types that a documentation tag writes between braces, such as
`Array<string>|null` or `function(this: Node, number=): boolean` (SPEC_FULL 3,
TypeExpr).
-/
namespace DocCheck

/-- A type expression. -/
inductive TypeExpr where
  /-- A primitive type, the all-type `*` or the unknown type `?`. -/
  | native (name : String)
  /-- A type known by its name, which may be a dotted chain. -/
  | reference (name : String)
  | union (members : List TypeExpr)
  | nullable (inner : TypeExpr)
  | nonNullable (inner : TypeExpr)
  | optional (inner : TypeExpr)
  | arrayOf (inner : TypeExpr)
  /-- A name applied to types, other than an array of one type. -/
  | generic (base : String) (params : List TypeExpr)
  /-- A function type; a parameter may be named. -/
  | function (params : List (Option String × TypeExpr)) (returns : Option TypeExpr)
  | record (fields : List (String × TypeExpr))
  /-- A text that is no type. -/
  | unknown (raw : String)
deriving Repr, Inhabited

namespace TypeExpr

/-- The text could not be read as a type. -/
def isUnknown : TypeExpr → Bool
  | .unknown _ => true
  | _ => false

/-! ## Names -/

mutual

/-- The names written in a type, in the order of writing: primitives, references and the
bases of generic types. Names of record fields and of parameters are not among them. -/
def names : TypeExpr → List String
  | .native name => [name]
  | .reference name => [name]
  | .union members => namesOfList members
  | .nullable inner => names inner
  | .nonNullable inner => names inner
  | .optional inner => names inner
  | .arrayOf inner => names inner
  | .generic base params => base :: namesOfList params
  | .function params returns => namesOfParams params ++ namesOfReturn returns
  | .record fields => namesOfFields fields
  | .unknown _ => []

def namesOfList : List TypeExpr → List String
  | [] => []
  | t :: ts => names t ++ namesOfList ts

def namesOfParams : List (Option String × TypeExpr) → List String
  | [] => []
  | (_, t) :: ps => names t ++ namesOfParams ps

def namesOfFields : List (String × TypeExpr) → List String
  | [] => []
  | (_, t) :: fs => names t ++ namesOfFields fs

def namesOfReturn : Option TypeExpr → List String
  | none => []
  | some t => names t

end

/-! ## Record fields -/

/-- The fields of a record without repetition: a name keeps its first place and takes its
last type. -/
def fieldMap (fields : List (String × TypeExpr)) : List (String × TypeExpr) :=
  Assoc.ofList fields

end TypeExpr

end DocCheck
