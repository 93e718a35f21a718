import DocCheck.Text.Lower
import DocCheck.TypeExpr.Basic
import DocCheck.ValueKind

/-!
# Which kinds of values a type accepts

A type may accept every kind, which is told apart from accepting a set of kinds.
Names count without regard to case, and a name that is not known stands for
objects (SPEC_FULL 4.4, coarse kind mapping).
-/
namespace DocCheck.TypeExpr

/-- The kinds that a name accepts; nothing for the names that accept every kind. -/
def kindsOfName (name : String) : Option KindSet :=
  if name = "*" ∨ name = "?" then none
  else
    some (match Text.lower name with
      | "boolean" => .single .boolean
      | "number" => .single .number
      | "string" => .single .string
      | "null" => .single .null
      | "undefined" => .single .undefined
      | "void" => .single .undefined
      | "object" => .ofList [.object, .array, .function, .regexp]
      | "array" => .single .array
      | "function" => .single .function
      | "regexp" => .single .regexp
      | _ => .single .object)

mutual

/-- The kinds that a type accepts; nothing for a type that accepts every kind. -/
def kinds : TypeExpr → Option KindSet
  | .native name => kindsOfName name
  | .reference name => kindsOfName name
  | .generic base _ => kindsOfName base
  | .union members => kindsOfMembers members
  | .nonNullable inner => kinds inner
  | .nullable inner => (kinds inner).map (·.union (.single .null))
  | .optional inner => (kinds inner).map (·.union (.single .undefined))
  | .arrayOf _ => some (.single .array)
  | .function _ _ => some (.single .function)
  | .record _ => some (.single .object)
  | .unknown _ => none

def kindsOfMembers : List TypeExpr → Option KindSet
  | [] => some .empty
  | t :: ts =>
    match kinds t, kindsOfMembers ts with
    | some s, some s' => some (s.union s')
    | _, _ => none

end

end DocCheck.TypeExpr
