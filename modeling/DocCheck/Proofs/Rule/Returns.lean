import Mathlib.Data.List.Forall2
import DocCheck.Proofs.Rule.Reports
import DocCheck.Proofs.TypeExpr.Kinds
import DocCheck.Rule.Evaluate

/-!
# What described return types miss

Where every call returns a value, a tag of a return value is reported if its type
misses a kind that is known to be returned, and the kinds that it misses are listed.
So a type that accepts more is never reported where the narrower one is not, and
neither is a type when less is known to be returned.

Results:

* `mem_missing`, `pairwise_missing`: which kinds are listed, and in which order.
* `checkReturnTypes_eq`: the tags that are reported, with their messages.
* `checkReturnTypes_sublist`: wider types and fewer returned kinds add no finding.
* `returnTypes_as_sets`: types as sets of kinds, and what follows for the rule.
-/
namespace DocCheck

/-- The tag stands where it stood and describes the same, but its type may be a wider one. -/
structure Tag.Widened (t t' : Tag) : Prop where
  name : t'.name = t.name
  location : t'.location = t.location
  type : t'.type = t.type ∨
    ∃ type type', t.type = some type ∧ t'.type = some type' ∧ type.Widens type'

namespace Rule

/-! ## Kinds that are missed -/

/-- The kinds that are known to be returned and that the type of the tag does not accept. -/
def missing (observed : KindSet) (t : Tag) : List ValueKind :=
  (t.type.map (uncovered observed)).getD []

theorem mem_uncovered {observed : KindSet} {type : TypeExpr} {k : ValueKind} :
    k ∈ uncovered observed type ↔
      observed.has k = true ∧ k ≠ .unknown ∧ type.accepts k = false := by
  unfold uncovered
  cases h : type.kinds with
  | none => simp [TypeExpr.accepts_of_kinds_none h]
  | some accepted =>
    simp [KindSet.mem_toList, KindSet.minus, KindSet.single, TypeExpr.accepts_of_kinds_some h,
      and_assoc]

theorem mem_missing {observed : KindSet} {t : Tag} {k : ValueKind} :
    k ∈ missing observed t ↔ ∃ type, t.type = some type ∧ observed.has k = true ∧
      k ≠ .unknown ∧ type.accepts k = false := by
  unfold missing
  cases t.type with
  | none => simp
  | some type => simp [mem_uncovered]

theorem pairwise_name : ValueKind.all.Pairwise fun k k' => k.name < k'.name := by decide +kernel

/-- The kinds are listed in the order of their names. -/
theorem pairwise_missing (observed : KindSet) (t : Tag) :
    (missing observed t).Pairwise fun k k' => k.name < k'.name := by
  unfold missing
  cases t.type with
  | none => exact .nil
  | some type =>
    show (uncovered observed type).Pairwise _
    unfold uncovered
    split
    · exact .nil
    · exact pairwise_name.sublist List.filter_sublist

/-- A wider type misses no other kinds, and neither does a type when less is known. -/
theorem mem_missing_of_widened {observed observed' : KindSet} {t t' : Tag} (ht : t.Widened t')
    (hkinds : ∀ k, observed'.has k = true → k = .unknown ∨ observed.has k = true) {k : ValueKind}
    (hk : k ∈ missing observed' t') : k ∈ missing observed t := by
  obtain ⟨type', htype', hobserved, hknown, hrefused⟩ := mem_missing.mp hk
  have hobserved : observed.has k = true := (hkinds k hobserved).resolve_left hknown
  obtain hsame | ⟨type, wider, htype, hwider, hwidens⟩ := ht.type
  · exact mem_missing.mpr ⟨type', hsame ▸ htype', hobserved, hknown, hrefused⟩
  · obtain rfl : wider = type' := Option.some.inj (hwider.symm.trans htype')
    refine mem_missing.mpr ⟨type, htype, hobserved, hknown, ?_⟩
    rw [← Bool.not_eq_true]
    intro haccepts
    rw [hwidens.accepts haccepts] at hrefused
    cases hrefused

/-! ## Tags that are reported -/

def missingFinding (observed : KindSet) (t : Tag) : Finding :=
  ⟨.checkReturnTypes, "Wrong returns value: declared type does not cover " ++
    ", ".intercalate ((missing observed t).map ValueKind.name), t.location⟩

theorem checkReturnTypes_eq {s : Subject} (h : s.signature.returns.reachability = .always) :
    checkReturnTypes s =
      (s.returnTags.filter fun t => missing s.signature.returns.kinds t ≠ []).map
        (missingFinding s.signature.returns.kinds) := by
  rw [checkReturnTypes, if_neg (by simp [h])]
  refine filterMap_eq_map_filter (fun t => ?_) s.returnTags
  unfold missing missingFinding missing
  cases htype : t.type with
  | none => simp
  | some type =>
    cases hmissing : uncovered s.signature.returns.kinds type with
    | nil => simp [hmissing]
    | cons k ks => simp [hmissing]

theorem returnTags_widened {s s' : Subject} (h : List.Forall₂ Tag.Widened s.tags s'.tags) :
    List.Forall₂ Tag.Widened s.returnTags s'.returnTags :=
  List.rel_filter (fun _ _ ht => by simp [ht.name]) h

theorem locations_sublist {observed observed' : KindSet} {ts ts' : List Tag}
    (hkinds : ∀ k, observed'.has k = true → k = .unknown ∨ observed.has k = true)
    (h : List.Forall₂ Tag.Widened ts ts') :
    ((ts'.filter fun t => missing observed' t ≠ []).map Tag.location).Sublist
      ((ts.filter fun t => missing observed t ≠ []).map Tag.location) := by
  induction h with
  | nil => exact .slnil
  | @cons t t' ts ts' ht _ ih =>
    by_cases hreported : missing observed' t' = []
    · rw [List.filter_cons_of_neg (by simpa using hreported)]
      exact ih.trans (((List.sublist_cons_self t ts).filter _).map _)
    · obtain ⟨k, hk⟩ := List.exists_mem_of_ne_nil _ hreported
      have hmissing := List.ne_nil_of_mem (mem_missing_of_widened ht hkinds hk)
      rw [List.filter_cons_of_pos (by simpa using hreported),
        List.filter_cons_of_pos (by simpa using hmissing), List.map_cons, List.map_cons,
        ht.location]
      exact ih.cons_cons _

/-- Wider types and fewer returned kinds add no finding; returned values of unknown kind do
not count. -/
theorem checkReturnTypes_sublist {s s' : Subject}
    (h : s.signature.returns.reachability = .always)
    (h' : s'.signature.returns.reachability = .always)
    (hkinds : ∀ k, s'.signature.returns.kinds.has k = true →
      k = .unknown ∨ s.signature.returns.kinds.has k = true)
    (htags : List.Forall₂ Tag.Widened s.tags s'.tags) :
    ((checkReturnTypes s').map Finding.location).Sublist
      ((checkReturnTypes s).map Finding.location) := by
  rw [checkReturnTypes_eq h, checkReturnTypes_eq h', List.map_map, List.map_map]
  exact locations_sublist hkinds (returnTags_widened htags)

/-- A union accepts every kind exactly if some member does, and otherwise what its members accept
together; so all that counts are the members that flattening leaves, and a type that is widened
inside of unions and marks accepts no less. Where every call returns a value, a tag of a return
value is reported exactly if its type does not accept some kind that is known to be returned; the
message lists these kinds, once each and in the order of their names. So a wider type, values of
unknown kind, and fewer returned kinds add no finding. -/
theorem returnTypes_as_sets {s s' : Subject}
    (h : s.signature.returns.reachability = .always)
    (h' : s'.signature.returns.reachability = .always)
    (hkinds : ∀ k, s'.signature.returns.kinds.has k = true →
      k = .unknown ∨ s.signature.returns.kinds.has k = true)
    (htags : List.Forall₂ Tag.Widened s.tags s'.tags) :
    (∀ members,
      (TypeExpr.kinds (.union members) = none ↔ ∃ t ∈ members, t.kinds = none) ∧
      ∀ kinds, TypeExpr.kinds (.union members) = some kinds → ∀ k,
        kinds.has k = true ↔ ∃ t ∈ members, ∃ ks, t.kinds = some ks ∧ ks.has k = true) ∧
    (∀ t t' : TypeExpr, (∀ u, u ∈ t.alternatives ↔ u ∈ t'.alternatives) → t.kinds = t'.kinds) ∧
    (∀ t t' : TypeExpr, t.Widens t' → ∀ k, t.accepts k = true → t'.accepts k = true) ∧
    (∃ missed : Tag → List ValueKind,
      (∀ t k, k ∈ missed t ↔ ∃ type, t.type = some type ∧
        s.signature.returns.kinds.has k = true ∧ k ≠ .unknown ∧ type.accepts k = false) ∧
      (∀ t, (missed t).Pairwise fun k k' => k.name < k'.name) ∧
      checkReturnTypes s = (s.returnTags.filter fun t => missed t ≠ []).map fun t =>
        ⟨.checkReturnTypes, "Wrong returns value: declared type does not cover " ++
          ", ".intercalate ((missed t).map ValueKind.name), t.location⟩) ∧
    ((checkReturnTypes s').map Finding.location).Sublist
      ((checkReturnTypes s).map Finding.location) :=
  ⟨fun members => ⟨TypeExpr.kinds_union_eq_none members, fun _ => TypeExpr.has_of_kinds_union⟩,
    fun _ _ => TypeExpr.kinds_congr, fun _ _ hw _ => hw.accepts,
    ⟨missing s.signature.returns.kinds, fun _ _ => mem_missing, pairwise_missing _,
      checkReturnTypes_eq h⟩,
    checkReturnTypes_sublist h h' hkinds htags⟩

/-- The tag of a return value of a type, alone in the comment of a function that returns values of
some kinds. -/
def returning (type : TypeExpr) (kinds : KindSet) : Subject :=
  ⟨some ⟨[], [⟨"return", "@return", .start, some type, none, false, none⟩], 0, .start⟩,
    ⟨"f", [], .unknown, .none, ⟨.always, kinds⟩, false, .start⟩⟩

/-- A type that misses two kinds, and its nullable form, which misses one of them. -/
theorem returnTypes_as_sets_nullable :
    let s := returning (.native "string") (.ofList [.number, .null])
    let s' := returning (.nullable (.native "string")) (.ofList [.null, .unknown, .number])
    (checkReturnTypes s).map Finding.message =
        ["Wrong returns value: declared type does not cover null, number"] ∧
      (checkReturnTypes s').map Finding.message =
        ["Wrong returns value: declared type does not cover number"] ∧
      List.Forall₂ Tag.Widened s.tags s'.tags ∧
      ((checkReturnTypes s').map Finding.location).Sublist
        ((checkReturnTypes s).map Finding.location) := by
  intro s s'
  have hkinds : ∀ k, s'.signature.returns.kinds.has k = true →
      k = .unknown ∨ s.signature.returns.kinds.has k = true := by
    intro k
    cases k <;> decide
  have htags : List.Forall₂ Tag.Widened s.tags s'.tags :=
    .cons ⟨rfl, rfl, .inr ⟨_, _, rfl, rfl, .nullable _⟩⟩ .nil
  exact ⟨by decide +kernel, by decide +kernel, htags,
    (returnTypes_as_sets rfl rfl hkinds htags).2.2.2.2⟩

end Rule

end DocCheck
