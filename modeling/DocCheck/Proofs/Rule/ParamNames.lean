import Mathlib.Data.List.Basic
import DocCheck.Comment.Parser
import DocCheck.Proofs.Rule.Reports

/-!
# Names at positions

Two rules look at the tags that take a position. One wants each to name the parameter at
its position. The other one wants the name to be that of any parameter and the position to
exist, and lets tags without a name pass. It is the weaker rule: what it reports, the first
one reports as well.

Results:

* `checkParamNames_eq`, `checkRedundantParams_eq`: which tags the rules report, once each.
* `misnames_of_isRedundant`: the second rule is the weaker one.
* `checkParamNames_eq_nil`: when the first rule reports nothing.
* `param_names_agree`: all of these for one comment.
-/
namespace DocCheck

variable {params : List Param} {t : Tag} {index : Nat}

namespace Tag

/-- The tag at a position does not name the parameter there: it has no name, there is no such
parameter, or the parameter has another name. -/
def Misnames (params : List Param) (t : Tag) (index : Nat) : Prop :=
  t.paramName = none ∨ params.length ≤ index ∨
    ∃ p, params[index]? = some p ∧ t.paramName ≠ some p.name

theorem not_misnames : ¬ t.Misnames params index ↔
    ∃ p, params[index]? = some p ∧ t.paramName = some p.name := by
  unfold Misnames
  constructor
  · intro h
    have hindex : index < params.length := Nat.lt_of_not_le fun hle => h (.inr (.inl hle))
    have hget := List.getElem?_eq_getElem hindex
    refine ⟨_, hget, ?_⟩
    by_contra hne
    exact h (.inr (.inr ⟨_, hget, hne⟩))
  · rintro ⟨p, hget, hname⟩ (h | h | ⟨q, hq, hne⟩)
    · rw [hname] at h
      cases h
    · rw [List.getElem?_eq_none h] at hget
      cases hget
    · rw [hget, Option.some_inj] at hq
      exact hne (hq ▸ hname)

instance : Decidable (t.Misnames params index) :=
  inferInstanceAs (Decidable (_ ∨ _ ∨ ∃ p ∈ params[index]?, t.paramName ≠ some p.name))

/-- The tag at a position names no parameter, or is behind all of them; a tag without a name is
none of these. -/
def IsRedundant (params : List Param) (t : Tag) (index : Nat) : Prop :=
  ∃ name, t.paramName = some name ∧ (name ∉ params.map Param.name ∨ params.length ≤ index)

instance : Decidable (t.IsRedundant params index) :=
  inferInstanceAs (Decidable (∃ name ∈ t.paramName, name ∉ params.map Param.name ∨ _))

/-- A parameter that is named at its position is declared there. -/
theorem misnames_of_isRedundant (h : t.IsRedundant params index) : t.Misnames params index := by
  obtain ⟨name, hname, hredundant⟩ := h
  by_contra hnot
  obtain ⟨p, hget, hp⟩ := not_misnames.mp hnot
  obtain rfl : name = p.name := Option.some.inj (hname.symm.trans hp)
  obtain ⟨hindex, -⟩ := List.getElem?_eq_some_iff.mp hget
  rcases hredundant with hmem | hlength
  · exact hmem (List.mem_map_of_mem (List.mem_of_getElem? hget))
  · omega

end Tag

namespace Rule

/-! ## What the rules report -/

theorem isSome_paramNameProblem :
    (paramNameProblem? params index t).isSome = true ↔ t.Misnames params index := by
  rw [← not_iff_not, Tag.not_misnames]
  unfold paramNameProblem?
  cases t.paramName <;> cases params[index]? <;> simp

variable (s : Subject)

theorem checkParamNames_eq : checkParamNames s =
    ((positional s).zipIdx.filter fun p => p.1.Misnames s.signature.params p.2).map fun p =>
      ⟨.checkParamNames, (paramNameProblem? s.signature.params p.2 p.1).getD "",
        p.1.location⟩ := by
  refine filterMap_eq_map_filter (fun p => ?_) _
  have hsome := @isSome_paramNameProblem s.signature.params p.1 p.2
  cases hproblem : paramNameProblem? s.signature.params p.2 p.1 with
  | none => simp [← hsome, hproblem]
  | some message => simp [← hsome, hproblem]

theorem checkRedundantParams_eq : checkRedundantParams s =
    ((positional s).zipIdx.filter fun p => p.1.IsRedundant s.signature.params p.2).map fun p =>
      ⟨.checkRedundantParams, "Found redundant param " ++ p.1.label, p.1.location⟩ := by
  refine filterMap_eq_map_filter (fun p => ?_) _
  cases hname : p.1.paramName with
  | none => simp [Tag.IsRedundant, hname]
  | some name => simp [Tag.IsRedundant, hname]

/-- The first rule reports nothing if and only if the names are those of the first parameters. -/
theorem checkParamNames_eq_nil : checkParamNames s = [] ↔
    (positional s).map Tag.paramName <+: s.signature.params.map fun p => some p.name := by
  rw [checkParamNames_eq, List.map_eq_nil_iff, List.filter_eq_nil_iff, List.prefix_iff_getElem?]
  simp only [decide_eq_true_eq, Tag.not_misnames]
  constructor
  · intro h index hindex
    rw [List.length_map] at hindex
    obtain ⟨p, hget, hname⟩ :=
      h ((positional s)[index], index) (List.mk_mem_zipIdx_iff_getElem?.mpr (by simp))
    rw [List.getElem?_map, hget, List.getElem_map, hname]
    rfl
  · rintro h ⟨t, index⟩ ht
    obtain ⟨hindex, hget⟩ := List.getElem?_eq_some_iff.mp (List.mk_mem_zipIdx_iff_getElem?.mp ht)
    have hname := h index (by simpa using hindex)
    rw [List.getElem_map, hget, List.getElem?_map, Option.map_eq_some_iff] at hname
    obtain ⟨p, hp, hname⟩ := hname
    exact ⟨p, hp, hname.symm⟩

/-- Of the tags that take a position, the first rule reports each that has no name, stands behind
the last parameter, or has another name than the parameter at its position, and the second rule
each that has a name but not that of any parameter, or stands behind the last one; both report
them once, in order, and no others. So the first rule reports nothing if and only if the names are
those of the first parameters, and then the second one reports nothing either: what it reports, the
first one does. -/
theorem param_names_agree (s : Subject) :
    (∃ message : Tag × Nat → String, checkParamNames s =
      ((positional s).zipIdx.filter fun p => p.1.Misnames s.signature.params p.2).map fun p =>
        ⟨.checkParamNames, message p, p.1.location⟩) ∧
      (checkParamNames s = [] ↔
        (positional s).map Tag.paramName <+: s.signature.params.map fun p => some p.name) ∧
      (∃ message : Tag × Nat → String, checkRedundantParams s =
        ((positional s).zipIdx.filter fun p => p.1.IsRedundant s.signature.params p.2).map fun p =>
          ⟨.checkRedundantParams, message p, p.1.location⟩) ∧
      (∀ (t : Tag) index, t.IsRedundant s.signature.params index →
        t.Misnames s.signature.params index) ∧
      ((checkRedundantParams s).map Finding.location).Sublist
        ((checkParamNames s).map Finding.location) ∧
      (checkParamNames s = [] → checkRedundantParams s = []) := by
  have hsublist : ((checkRedundantParams s).map Finding.location).Sublist
      ((checkParamNames s).map Finding.location) := by
    rw [checkRedundantParams_eq, checkParamNames_eq, List.map_map, List.map_map]
    exact (List.monotone_filter_right _ fun p hp =>
      decide_eq_true (Tag.misnames_of_isRedundant (of_decide_eq_true hp))).map _
  refine ⟨⟨_, checkParamNames_eq s⟩, checkParamNames_eq_nil s, ⟨_, checkRedundantParams_eq s⟩,
    fun t index => Tag.misnames_of_isRedundant, hsublist, fun hnil => ?_⟩
  rw [hnil, List.map_nil, List.sublist_nil, List.map_eq_nil_iff] at hsublist
  exact hsublist

/-- Two parameters of one name: a comment that names both and a property, and one in which a tag
has no name and others stand where they should not. -/
theorem param_names_agree_repeated :
    let g : Signature := ⟨"f", [⟨"a", false⟩, ⟨"a", true⟩, ⟨"b", false⟩], .unknown, .none, .none,
      false, .start⟩
    let s : Subject :=
      ⟨some (Comment.parse "/**\n * @param a\n * @param a.x\n * @param a */" .start), g⟩
    let s' : Subject := ⟨some (Comment.parse
      "/**\n * @param b\n * @param\n * @param b\n * @param b\n * @param c */" .start), g⟩
    (checkParamNames s').map Finding.location = [⟨2, 3⟩, ⟨3, 3⟩, ⟨5, 3⟩, ⟨6, 3⟩] ∧
      (checkRedundantParams s').map Finding.location = [⟨5, 3⟩, ⟨6, 3⟩] ∧
      checkParamNames s = [] ∧ checkRedundantParams s = [] := by
  intro g s s'
  have hnil : checkParamNames s = [] := by decide +kernel
  obtain ⟨-, -, -, -, -, hclean⟩ := param_names_agree s
  exact ⟨by decide +kernel, by decide +kernel, hnil, hclean hnil⟩

end Rule

end DocCheck
