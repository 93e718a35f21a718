import Mathlib.Data.List.Basic
import DocCheck.Proofs.Rule.Independence
import DocCheck.Proofs.Rule.Reports
import DocCheck.Proofs.Tag.Combined

/-!
# Tags that are reported

A tag is held against one word about it: that of the tags which the choice adds, or
else that of its preset. The presets taken together relax what each of them says,
so a choice of all presets reports no tag that the choice of one of them lets pass.

Results:

* `lookup_tags_eq`: which word a choice has for a tag.
* `checkAnnotations_eq`: which tags are reported, once each.
* `Tag.Breaks.of_relaxes`: a relaxed word is broken by fewer tags.
* `annotations_relaxed`: tables taken together, and what follows for the rule.
-/
namespace DocCheck

/-- What a choice says about a tag: its own word, or else that of its preset. -/
def Choice.said : Choice → String → Option Requirement
  | .annotations preset extra, tag =>
    (Assoc.lookup tag extra).or (Assoc.lookup tag (TagTable.ofPreset preset))
  | _, tag => Assoc.lookup tag (TagTable.ofPreset none)

theorem Choice.said_annotations (preset : Option Preset) (extra : TagTable) (tag : String) :
    (annotations preset extra).said tag =
      (Assoc.lookup tag extra).or (Assoc.lookup tag (TagTable.ofPreset preset)) := rfl

/-- The tag is not known, or it has a value where none may follow, or none where one must. -/
def Tag.Breaks (t : Tag) (said : Option Requirement) : Prop :=
  said = none ∨ said = some .noValue ∧ t.valueText ≠ "" ∨
    said = some .requiredValue ∧ t.valueText = ""

instance (t : Tag) (said : Option Requirement) : Decidable (t.Breaks said) :=
  inferInstanceAs (Decidable (_ ∨ _ ∧ _ ∨ _ ∧ _))

/-- A relaxed word is broken by fewer tags. -/
theorem Tag.Breaks.of_relaxes {t : Tag} {said said' : Option Requirement}
    (hr : TagTable.Relaxes said said') (h : t.Breaks said') : t.Breaks said := by
  obtain hnone | rfl | rfl := hr
  · exact .inl hnone
  · exact h
  · obtain h | ⟨h, -⟩ | ⟨h, -⟩ := h <;> cases h

namespace Rule

/-! ## One tag -/

theorem lookup_tags_eq {choice : Choice} (h : choice.IsTable) (tag : String) :
    Assoc.lookup tag choice.tags = choice.said tag := by
  cases choice with
  | annotations preset extra => exact Choice.lookup_tags h tag
  | on => rfl
  | mode m => rfl

theorem tagProblem_ne_none {table : TagTable} {t : Tag} :
    tagProblem? table t ≠ none ↔ t.Breaks (Assoc.lookup t.keyword table) := by
  unfold tagProblem? Tag.Breaks
  by_cases hvalue : t.valueText = ""
  · rcases Assoc.lookup t.keyword table with _ | _ | _ | _ <;> simp [hvalue]
  · rcases Assoc.lookup t.keyword table with _ | _ | _ | _ <;> simp [hvalue]

/-! ## All tags -/

/-- The tags that a choice holds against the comment. -/
def broken (choice : Choice) (s : Subject) : List Tag :=
  s.tags.filter fun t => t.Breaks (choice.said t.keyword)

def brokenFinding (choice : Choice) (t : Tag) : Finding :=
  ⟨.checkAnnotations, (tagProblem? choice.tags t).getD "", t.location⟩

theorem checkAnnotations_eq {choice : Choice} (h : choice.IsTable) (s : Subject) :
    checkAnnotations choice s = (broken choice s).map (brokenFinding choice) := by
  refine filterMap_eq_map_filter (fun t => ?_) s.tags
  have ht := @tagProblem_ne_none choice.tags t
  rw [lookup_tags_eq h] at ht
  cases hp : tagProblem? choice.tags t with
  | none => simp [← ht, hp]
  | some m => simp [← ht, hp, brokenFinding]

/-- What all presets together hold against a tag, each of them does. -/
theorem breaks_preset {extra : TagTable} {t : Tag} (preset : Preset)
    (h : t.Breaks ((Choice.annotations none extra).said t.keyword)) :
    t.Breaks ((Choice.annotations (some preset) extra).said t.keyword) := by
  rw [Choice.said_annotations] at h ⊢
  cases hextra : Assoc.lookup t.keyword extra with
  | none =>
    rw [hextra, Option.none_or] at h
    rw [Option.none_or]
    exact h.of_relaxes (TagTable.relaxes_everyPreset preset t.keyword)
  | some r =>
    rw [hextra, Option.some_or] at h
    rw [Option.some_or]
    exact h

/-- Tables that are combined know no tag that none of them knows; of a tag they say what all that
know it say, or that any value goes if these disagree, in whatever order they are combined. A
choice reports a tag once if neither its own tags nor else its preset know it, if it has a value
and may not have one, or if it has none and must have one, and never otherwise. So with the same
tags of its own, a choice of one preset reports each tag that all presets together report. -/
theorem annotations_relaxed {tables : List TagTable} {choice : Choice} {extra : TagTable}
    (htables : ∀ table ∈ tables, (table.map Prod.fst).Nodup) (hchoice : choice.IsTable)
    (hextra : (extra.map Prod.fst).Nodup) (s : Subject) :
    (∀ tag,
      ((∀ table ∈ tables, Assoc.lookup tag table = none) →
        Assoc.lookup tag (TagTable.combine tables) = none) ∧
      (∀ table ∈ tables, ∀ r, Assoc.lookup tag table = some r →
        (∀ table ∈ tables, ∀ r', Assoc.lookup tag table = some r' → r' = r) →
        Assoc.lookup tag (TagTable.combine tables) = some r) ∧
      (∀ table ∈ tables, ∀ table' ∈ tables, ∀ r r', Assoc.lookup tag table = some r →
        Assoc.lookup tag table' = some r' → r ≠ r' →
        Assoc.lookup tag (TagTable.combine tables) = some .anyValue) ∧
      ∀ tables', tables'.Perm tables →
        Assoc.lookup tag (TagTable.combine tables') =
          Assoc.lookup tag (TagTable.combine tables)) ∧
    (∃ message : Tag → String, checkAnnotations choice s =
      (s.tags.filter fun t => t.Breaks (choice.said t.keyword)).map fun t =>
        ⟨.checkAnnotations, message t, t.location⟩) ∧
    ∀ preset,
      (∀ t : Tag, t.Breaks ((Choice.annotations none extra).said t.keyword) →
        t.Breaks ((Choice.annotations (some preset) extra).said t.keyword)) ∧
      ((checkAnnotations (.annotations none extra) s).map Finding.location).Sublist
        ((checkAnnotations (.annotations (some preset) extra) s).map Finding.location) := by
  refine ⟨fun tag => ⟨TagTable.lookup_combine_of_none htables tag, ?_, ?_,
    fun tables' => TagTable.lookup_combine_of_perm htables tag⟩,
    ⟨_, checkAnnotations_eq hchoice s⟩, fun preset => ⟨fun t => breaks_preset preset, ?_⟩⟩
  · exact fun table ht r hr => TagTable.lookup_combine_of_agree htables tag ht hr
  · exact fun table ht table' ht' r r' => TagTable.lookup_combine_of_differ htables tag ht ht'
  · have htable : ∀ preset, (Choice.annotations preset extra).IsTable := fun _ => hextra
    rw [checkAnnotations_eq (htable none), checkAnnotations_eq (htable (some preset)),
      List.map_map, List.map_map]
    exact (List.monotone_filter_right _ fun t ht =>
      decide_eq_true (breaks_preset preset (of_decide_eq_true ht))).map _

/-- Two tables that disagree on a tag, and a comment with a tag that only one preset knows and a
tag of the choice's own. -/
theorem annotations_relaxed_summary :
    let tables : List TagTable := [[("class", .anyValue)], [("class", .requiredValue)]]
    let extra : TagTable := [("remark", .noValue)]
    let s : Subject :=
      ⟨some (Comment.parse "/**\n * @summary x\n * @remark x */" .start),
        ⟨"f", [], .unknown, .none, .none, false, .start⟩⟩
    (∀ table ∈ tables, (table.map Prod.fst).Nodup) ∧ (extra.map Prod.fst).Nodup ∧
      Assoc.lookup "class" (TagTable.combine tables) = some .anyValue ∧
      (checkAnnotations (.annotations none extra) s).map Finding.message =
        ["Tag @remark does not accept a value"] ∧
      (checkAnnotations (.annotations (some .jsduck5) extra) s).map Finding.message =
        ["Unknown tag @summary", "Tag @remark does not accept a value"] ∧
      ((checkAnnotations (.annotations none extra) s).map Finding.location).Sublist
        ((checkAnnotations (.annotations (some .jsduck5) extra) s).map Finding.location) := by
  intro tables extra s
  have htables : ∀ table ∈ tables, (table.map Prod.fst).Nodup := by decide +kernel
  have hextra : (extra.map Prod.fst).Nodup := by decide +kernel
  obtain ⟨hcombined, -, hpresets⟩ :=
    @annotations_relaxed tables (.annotations none extra) extra htables hextra hextra s
  refine ⟨htables, hextra, ?_, by decide +kernel, by decide +kernel, (hpresets .jsduck5).2⟩
  have hany : [("class", Requirement.anyValue)] ∈ tables := List.mem_cons_self
  have hrequired : [("class", Requirement.requiredValue)] ∈ tables :=
    List.mem_cons_of_mem _ List.mem_cons_self
  exact (hcombined "class").2.2.1 _ hany _ hrequired .anyValue .requiredValue
    (by decide +kernel) (by decide +kernel) (by decide)

end Rule

end DocCheck
