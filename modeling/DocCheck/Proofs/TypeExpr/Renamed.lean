import DocCheck.TypeExpr.Basic

/-!
# Types with other names

A type is renamed by replacing each name that is written in it: primitives, references and
the bases of generic types. The names of fields and of parameters stay, and so does the
shape of the type.

Results:

* `names_rename`: the names are replaced one by one, where they stand.
* `rename_eq_self`: a type whose names all stay is the same type.
* `isUnknown_rename`: a text that is no type stays what it is.
-/
namespace DocCheck.TypeExpr

mutual

/-- The type with each name in it replaced. -/
def rename (f : String → String) : TypeExpr → TypeExpr
  | .native name => .native (f name)
  | .reference name => .reference (f name)
  | .union members => .union (renameList f members)
  | .nullable inner => .nullable (rename f inner)
  | .nonNullable inner => .nonNullable (rename f inner)
  | .optional inner => .optional (rename f inner)
  | .arrayOf inner => .arrayOf (rename f inner)
  | .generic base params => .generic (f base) (renameList f params)
  | .function params returns => .function (renameParams f params) (renameReturn f returns)
  | .record fields => .record (renameFields f fields)
  | .unknown raw => .unknown raw

def renameList (f : String → String) : List TypeExpr → List TypeExpr
  | [] => []
  | t :: ts => rename f t :: renameList f ts

def renameParams (f : String → String) :
    List (Option String × TypeExpr) → List (Option String × TypeExpr)
  | [] => []
  | (label, t) :: ps => (label, rename f t) :: renameParams f ps

def renameFields (f : String → String) : List (String × TypeExpr) → List (String × TypeExpr)
  | [] => []
  | (label, t) :: fs => (label, rename f t) :: renameFields f fs

def renameReturn (f : String → String) : Option TypeExpr → Option TypeExpr
  | none => none
  | some t => some (rename f t)

end

variable (f : String → String)

mutual

/-- The names are replaced one by one, where they stand. -/
theorem names_rename : ∀ t, (rename f t).names = t.names.map f
  | .native _ | .reference _ | .unknown _ => rfl
  | .union members => namesOfList_renameList members
  | .nullable inner => names_rename inner
  | .nonNullable inner => names_rename inner
  | .optional inner => names_rename inner
  | .arrayOf inner => names_rename inner
  | .generic base params => congrArg (f base :: ·) (namesOfList_renameList params)
  | .function params returns => by
    rw [rename, names, names, List.map_append, namesOfParams_renameParams params,
      namesOfReturn_renameReturn returns]
  | .record fields => namesOfFields_renameFields fields

theorem namesOfList_renameList : ∀ ts, namesOfList (renameList f ts) = (namesOfList ts).map f
  | [] => rfl
  | t :: ts => by
    rw [renameList, namesOfList, namesOfList, List.map_append, names_rename t,
      namesOfList_renameList ts]

theorem namesOfParams_renameParams :
    ∀ ps, namesOfParams (renameParams f ps) = (namesOfParams ps).map f
  | [] => rfl
  | (_, t) :: ps => by
    rw [renameParams, namesOfParams, namesOfParams, List.map_append, names_rename t,
      namesOfParams_renameParams ps]

theorem namesOfFields_renameFields :
    ∀ fs, namesOfFields (renameFields f fs) = (namesOfFields fs).map f
  | [] => rfl
  | (_, t) :: fs => by
    rw [renameFields, namesOfFields, namesOfFields, List.map_append, names_rename t,
      namesOfFields_renameFields fs]

theorem namesOfReturn_renameReturn :
    ∀ r, namesOfReturn (renameReturn f r) = (namesOfReturn r).map f
  | none => rfl
  | some t => names_rename t

end

variable {f}

mutual

/-- A type whose names all stay is the same type. -/
theorem rename_eq_self : ∀ t, (∀ name ∈ names t, f name = name) → rename f t = t
  | .native name, h => congrArg TypeExpr.native (h name List.mem_cons_self)
  | .reference name, h => congrArg TypeExpr.reference (h name List.mem_cons_self)
  | .unknown _, _ => rfl
  | .union members, h => congrArg TypeExpr.union (renameList_eq_self members h)
  | .nullable inner, h => congrArg TypeExpr.nullable (rename_eq_self inner h)
  | .nonNullable inner, h => congrArg TypeExpr.nonNullable (rename_eq_self inner h)
  | .optional inner, h => congrArg TypeExpr.optional (rename_eq_self inner h)
  | .arrayOf inner, h => congrArg TypeExpr.arrayOf (rename_eq_self inner h)
  | .generic base params, h => by
    obtain ⟨hbase, hparams⟩ := List.forall_mem_cons.mp h
    rw [rename, hbase, renameList_eq_self params hparams]
  | .function params returns, h => by
    obtain ⟨hparams, hreturns⟩ := List.forall_mem_append.mp h
    rw [rename, renameParams_eq_self params hparams, renameReturn_eq_self returns hreturns]
  | .record fields, h => congrArg TypeExpr.record (renameFields_eq_self fields h)

theorem renameList_eq_self :
    ∀ ts, (∀ name ∈ namesOfList ts, f name = name) → renameList f ts = ts
  | [], _ => rfl
  | t :: ts, h => by
    obtain ⟨ht, hts⟩ := List.forall_mem_append.mp h
    rw [renameList, rename_eq_self t ht, renameList_eq_self ts hts]

theorem renameParams_eq_self :
    ∀ ps, (∀ name ∈ namesOfParams ps, f name = name) → renameParams f ps = ps
  | [], _ => rfl
  | (_, t) :: ps, h => by
    obtain ⟨ht, hps⟩ := List.forall_mem_append.mp h
    rw [renameParams, rename_eq_self t ht, renameParams_eq_self ps hps]

theorem renameFields_eq_self :
    ∀ fs, (∀ name ∈ namesOfFields fs, f name = name) → renameFields f fs = fs
  | [], _ => rfl
  | (_, t) :: fs, h => by
    obtain ⟨ht, hfs⟩ := List.forall_mem_append.mp h
    rw [renameFields, rename_eq_self t ht, renameFields_eq_self fs hfs]

theorem renameReturn_eq_self :
    ∀ r, (∀ name ∈ namesOfReturn r, f name = name) → renameReturn f r = r
  | none, _ => rfl
  | some t, h => congrArg some (rename_eq_self t h)

end

theorem isUnknown_rename (t : TypeExpr) : (rename f t).isUnknown = t.isUnknown := by
  cases t <;> rfl

end DocCheck.TypeExpr
