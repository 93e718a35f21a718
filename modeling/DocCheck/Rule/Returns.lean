import DocCheck.Rule.Basic
import DocCheck.TypeExpr.Kinds

/-!
# Rules on return values

Tags of return values are compared with what the function returns (SPEC_FULL 4.4).
-/
namespace DocCheck.Rule

/-- Every tag of a return value has to have a type. -/
def requireReturnTypes (s : Subject) : List Finding :=
  s.returnTags.filterMap fun t =>
    if t.type.isNone then
      some ⟨.requireReturnTypes, "Missing type in @" ++ t.keyword ++ " statement", t.location⟩
    else none

/-- The body of the function is left empty on purpose. -/
def isAbstract (s : Subject) : Bool :=
  s.tags.any fun t => ["abstract", "virtual", "interface"].contains t.name

/-- A function that never returns a value must not describe one. -/
def checkRedundantReturns (s : Subject) : List Finding :=
  if s.signature.returns.reachability ≠ .never ∨ isAbstract s then []
  else
    s.returnTags.map fun t =>
      ⟨.checkRedundantReturns,
        "Redundant @" ++ t.keyword ++ ": '" ++ s.signature.name ++ "' never returns a value",
        t.location⟩

/-- The kinds of returned values that are known and that a type does not accept. -/
def uncovered (observed : KindSet) (type : TypeExpr) : List ValueKind :=
  match type.kinds with
  | none => []
  | some accepted => ((observed.minus (.single .unknown)).minus accepted).toList

/-- Where every call returns a value, the described type has to accept it. Values of unknown
kind are never held against it. -/
def checkReturnTypes (s : Subject) : List Finding :=
  if s.signature.returns.reachability ≠ .always then []
  else
    s.returnTags.filterMap fun t =>
      match t.type.map (uncovered s.signature.returns.kinds) with
      | some (k :: ks) =>
        some ⟨.checkReturnTypes,
          "Wrong returns value: declared type does not cover " ++
            ", ".intercalate ((k :: ks).map ValueKind.name), t.location⟩
      | _ => none

end DocCheck.Rule
