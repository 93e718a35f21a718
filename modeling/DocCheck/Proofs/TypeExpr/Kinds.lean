import DocCheck.TypeExpr.Kinds

/-!
# Kinds as sets

A type that accepts every kind is the top of all sets of kinds. With that, a union
accepts what some member accepts, wherever the member stands and however often, and
a type that is replaced by a wider one inside of unions and marks accepts no less.

Results:

* `kindsOfMembers_append`: the kinds of two lists of members taken together.
* `kinds_union_eq_none`, `has_of_kinds_union`: which kinds a union accepts.
* `kinds_congr`: the kinds depend only on the members that flattening leaves.
* `Widens.accepts`: a wider type accepts no less.
-/
namespace DocCheck.TypeExpr

/-- The type accepts values of the kind. -/
def accepts (t : TypeExpr) (k : ValueKind) : Bool := t.kinds.all fun s => s.has k

theorem accepts_of_kinds_none {t : TypeExpr} (h : t.kinds = none) (k : ValueKind) :
    t.accepts k = true := by
  rw [accepts, h]
  rfl

theorem accepts_of_kinds_some {t : TypeExpr} {s : KindSet} (h : t.kinds = some s) (k : ValueKind) :
    t.accepts k = s.has k := by
  rw [accepts, h]
  rfl

/-! ## Members -/

/-- The kinds in either of two sets, one of which may be all kinds. -/
def eitherKinds : Option KindSet → Option KindSet → Option KindSet
  | some s, some s' => some (s.union s')
  | _, _ => none

theorem eitherKinds_assoc (a b c : Option KindSet) :
    eitherKinds (eitherKinds a b) c = eitherKinds a (eitherKinds b c) := by
  cases a with
  | none => rfl
  | some s =>
    cases b with
    | none => rfl
    | some s' =>
      cases c with
      | none => rfl
      | some s'' => exact congrArg some (KindSet.union_assoc s s' s'')

theorem eitherKinds_empty (a : Option KindSet) : eitherKinds a (some .empty) = a := by
  cases a with
  | none => rfl
  | some s => exact congrArg some (KindSet.union_empty s)

theorem empty_eitherKinds (a : Option KindSet) : eitherKinds (some .empty) a = a := by
  cases a with
  | none => rfl
  | some s => exact congrArg some (KindSet.empty_union s)

theorem kindsOfMembers_cons (t : TypeExpr) (ts : List TypeExpr) :
    kindsOfMembers (t :: ts) = eitherKinds t.kinds (kindsOfMembers ts) := rfl

theorem kindsOfMembers_append (ts us : List TypeExpr) :
    kindsOfMembers (ts ++ us) = eitherKinds (kindsOfMembers ts) (kindsOfMembers us) := by
  induction ts with
  | nil => exact (empty_eitherKinds _).symm
  | cons t ts ih =>
    rw [List.cons_append, kindsOfMembers_cons, ih, kindsOfMembers_cons, eitherKinds_assoc]

theorem kindsOfMembers_singleton (t : TypeExpr) : kindsOfMembers [t] = t.kinds :=
  eitherKinds_empty t.kinds

theorem kinds_union_eq_none (members : List TypeExpr) :
    kinds (.union members) = none ↔ ∃ t ∈ members, t.kinds = none := by
  show kindsOfMembers members = none ↔ _
  induction members with
  | nil => exact ⟨fun h => (by cases h), fun h => (by simp at h)⟩
  | cons t ts ih =>
    rw [kindsOfMembers_cons]
    cases ht : t.kinds with
    | none => simp [eitherKinds, ht]
    | some s =>
      simp only [List.mem_cons, exists_eq_or_imp, ht, ← ih]
      cases kindsOfMembers ts <;> simp [eitherKinds]

theorem has_of_kinds_union {members : List TypeExpr} {s : KindSet}
    (h : kinds (.union members) = some s) (k : ValueKind) :
    s.has k = true ↔ ∃ t ∈ members, ∃ s', t.kinds = some s' ∧ s'.has k = true := by
  have hmembers : kindsOfMembers members = some s := h
  clear h
  induction members generalizing s with
  | nil =>
    cases hmembers
    simp
  | cons t ts ih =>
    rw [kindsOfMembers_cons] at hmembers
    cases ht : t.kinds with
    | none =>
      rw [ht] at hmembers
      cases hmembers
    | some a =>
      cases hts : kindsOfMembers ts with
      | none =>
        rw [ht, hts] at hmembers
        cases hmembers
      | some b =>
        rw [ht, hts] at hmembers
        cases hmembers
        simp [ht, ih hts]

/-- A union accepts what some member accepts. -/
theorem accepts_union (members : List TypeExpr) (k : ValueKind) :
    accepts (.union members) k = true ↔ ∃ t ∈ members, t.accepts k = true := by
  cases h : kinds (.union members) with
  | none =>
    obtain ⟨t, ht, hnone⟩ := (kinds_union_eq_none members).mp h
    exact iff_of_true (accepts_of_kinds_none h k) ⟨t, ht, accepts_of_kinds_none hnone k⟩
  | some s =>
    have hsome : ∀ t ∈ members, ∃ s', t.kinds = some s' := by
      intro t ht
      refine Option.ne_none_iff_exists'.mp fun hnone => ?_
      rw [(kinds_union_eq_none members).mpr ⟨t, ht, hnone⟩] at h
      cases h
    rw [accepts_of_kinds_some h, has_of_kinds_union h]
    constructor
    · rintro ⟨t, ht, s', hs', hk⟩
      exact ⟨t, ht, (accepts_of_kinds_some hs' k).trans hk⟩
    · rintro ⟨t, ht, hk⟩
      obtain ⟨s', hs'⟩ := hsome t ht
      exact ⟨t, ht, s', hs', (accepts_of_kinds_some hs' k).symm.trans hk⟩

/-! ## Flattened unions -/

mutual

/-- The members that are left when unions in unions are flattened; a type that is no union is its
one member. -/
def alternatives : TypeExpr → List TypeExpr
  | .union members => alternativesOfList members
  | t => [t]

def alternativesOfList : List TypeExpr → List TypeExpr
  | [] => []
  | t :: ts => alternatives t ++ alternativesOfList ts

end

mutual

theorem kindsOfMembers_alternatives : ∀ t, kindsOfMembers (alternatives t) = kinds t
  | .union members => kindsOfMembers_alternativesOfList members
  | .native name => kindsOfMembers_singleton (.native name)
  | .reference name => kindsOfMembers_singleton (.reference name)
  | .nullable inner => kindsOfMembers_singleton (.nullable inner)
  | .nonNullable inner => kindsOfMembers_singleton (.nonNullable inner)
  | .optional inner => kindsOfMembers_singleton (.optional inner)
  | .arrayOf inner => kindsOfMembers_singleton (.arrayOf inner)
  | .generic base params => kindsOfMembers_singleton (.generic base params)
  | .function params returns => kindsOfMembers_singleton (.function params returns)
  | .record fields => kindsOfMembers_singleton (.record fields)
  | .unknown raw => kindsOfMembers_singleton (.unknown raw)

theorem kindsOfMembers_alternativesOfList :
    ∀ ts, kindsOfMembers (alternativesOfList ts) = kindsOfMembers ts
  | [] => rfl
  | t :: ts => by
    rw [alternativesOfList, kindsOfMembers_append, kindsOfMembers_alternatives t,
      kindsOfMembers_alternativesOfList ts, kindsOfMembers_cons]

end

/-- The kinds of a union depend on the set of its members. -/
theorem kindsOfMembers_congr {ts ts' : List TypeExpr} (h : ∀ t, t ∈ ts ↔ t ∈ ts') :
    kindsOfMembers ts = kindsOfMembers ts' := by
  have hnone : kinds (.union ts) = none ↔ kinds (.union ts') = none := by
    simp only [kinds_union_eq_none, h]
  show kinds (.union ts) = kinds (.union ts')
  cases hs : kinds (.union ts) with
  | none => exact (hnone.mp hs).symm
  | some s =>
    cases hs' : kinds (.union ts') with
    | none =>
      rw [hnone.mpr hs'] at hs
      cases hs
    | some s' =>
      refine congrArg some (KindSet.ext (funext fun k => Bool.eq_iff_iff.mpr ?_))
      rw [has_of_kinds_union hs, has_of_kinds_union hs']
      simp only [h]

/-- Types with the same members accept the same kinds, whatever the order and the nesting. -/
theorem kinds_congr {t t' : TypeExpr} (h : ∀ u, u ∈ t.alternatives ↔ u ∈ t'.alternatives) :
    t.kinds = t'.kinds := by
  rw [← kindsOfMembers_alternatives t, ← kindsOfMembers_alternatives t', kindsOfMembers_congr h]

/-! ## Wider types -/

/-- The second type is the first one with a part replaced by a union that has it as a member, or
by its nullable or optional form; around the part there are unions and marks only. -/
inductive Widens : TypeExpr → TypeExpr → Prop where
  | union {t members} (h : t ∈ members) : Widens t (.union members)
  | nullable (t) : Widens t (.nullable t)
  | optional (t) : Widens t (.optional t)
  | inUnion {t t'} (before after) (h : Widens t t') :
      Widens (.union (before ++ t :: after)) (.union (before ++ t' :: after))
  | inNullable {t t'} (h : Widens t t') : Widens (.nullable t) (.nullable t')
  | inNonNullable {t t'} (h : Widens t t') : Widens (.nonNullable t) (.nonNullable t')
  | inOptional {t t'} (h : Widens t t') : Widens (.optional t) (.optional t')

theorem accepts_nullable (t : TypeExpr) (k : ValueKind) :
    accepts (.nullable t) k = (t.accepts k || k == .null) := by
  rw [accepts, accepts, kinds]
  cases t.kinds <;> rfl

theorem accepts_optional (t : TypeExpr) (k : ValueKind) :
    accepts (.optional t) k = (t.accepts k || k == .undefined) := by
  rw [accepts, accepts, kinds]
  cases t.kinds <;> rfl

/-- A wider type accepts no less. -/
theorem Widens.accepts {t t' : TypeExpr} (h : Widens t t') {k : ValueKind}
    (hk : t.accepts k = true) : t'.accepts k = true := by
  induction h with
  | union hmem => exact (accepts_union _ k).mpr ⟨_, hmem, hk⟩
  | nullable t => simp [accepts_nullable, hk]
  | optional t => simp [accepts_optional, hk]
  | @inUnion t t' before after _ ih =>
    rw [accepts_union] at hk ⊢
    obtain ⟨u, hu, hk⟩ := hk
    rcases List.mem_append.mp hu with hu | hu
    · exact ⟨u, List.mem_append_left _ hu, hk⟩
    · rcases List.mem_cons.mp hu with rfl | hu
      · exact ⟨t', by simp, ih hk⟩
      · exact ⟨u, by simp [hu], hk⟩
  | inNullable _ ih =>
    rw [accepts_nullable, Bool.or_eq_true] at hk ⊢
    exact hk.imp_left ih
  | inNonNullable _ ih => exact ih hk
  | inOptional _ ih =>
    rw [accepts_optional, Bool.or_eq_true] at hk ⊢
    exact hk.imp_left ih

end DocCheck.TypeExpr
