import DocCheck.Config.Resolve
import DocCheck.Proofs.Comment.Location
import DocCheck.Proofs.Rule.Reports

/-!
# The order of findings

Findings are ordered by their rules, and those of one rule by the places that
they are reported at, since a rule goes over tags in their order. The two rules
on access go over two kinds of tags, one kind after the other; there a finding
may be reported before one that stands further up.

Results:

* `pairwise_line_tags`: tags stand on lines that ascend.
* `passes_apply`: how the findings of each rule come about.
* `Passes.rule`, `Passes.inOrder`: a finding names its rule, and the findings of one rule are in
  order, apart from those of crossing tags.
* `evaluate_ordered`: all findings are in order, apart from those of crossing tags.
* `evaluate_out_of_order`: tags do cross, for both rules on access.
-/
namespace DocCheck

/-- Tags stand on lines that ascend. -/
theorem Comment.pairwise_line_tags (raw : String) (start : Location) :
    (parse raw start).tags.Pairwise fun t u => t.location.line < u.location.line := by
  have hlines : (parse raw start).tags.map (fun t => t.location.line) =
      ((contentLines raw.toList).findIdxs Line.startsTag).map
        fun i : Nat => start.line + (i : Int) := by
    rw [← line_blocks start 0, parse, List.map_map]
    exact List.map_congr_left fun b _ => congrArg Location.line (location_toTag b)
  have hsorted : (((contentLines raw.toList).findIdxs Line.startsTag).map
      fun i : Nat => start.line + (i : Int)).Pairwise (· < ·) :=
    List.pairwise_map.mpr (List.pairwise_findIdxs.imp fun h => by omega)
  rw [← hlines] at hsorted
  exact List.pairwise_map.mp hsorted

namespace Rule

/-! ## One rule -/

/-- Tags of which a rule reports the first before the second, wherever they stand. -/
def Crosses : RuleId → Tag → Tag → Prop
  | .checkRedundantAccess, t, u => isExplicitAccess t ∧ isShortAccess u
  | .leadingUnderscoreAccess, t, u => isShortAccess t ∧ isExplicitAccess u
  | _, _, _ => False

/-- How the findings of a rule come about: at tags in their order, at tags of one kind and then at
tags of a kind that they cross, or one at most. -/
inductive Passes (s : Subject) (r : RuleId) : List Finding → Prop where
  | along {fits ts fs} (h : Reports r fits ts fs) (hts : ts.Sublist s.tags) : Passes s r fs
  | across {fits fits' p q fs gs} (hf : Reports r fits (s.tags.filter p) fs)
      (hg : Reports r fits' (s.tags.filter q) gs)
      (hcross : ∀ t u, p t = true → q u = true → Crosses r t u) : Passes s r (fs ++ gs)
  | once {fits fs} (h : ReportsOnce r fits fs) : Passes s r fs

/-- Two findings of one rule are in order: by their places, or because their tags cross. -/
def InOrder (s : Subject) (f g : Finding) : Prop :=
  f.location.atOrBefore g.location ∨
    ∃ t ∈ s.tags, ∃ u ∈ s.tags, f.location = t.location ∧ g.location = u.location ∧
      Crosses f.rule t u

section

variable {r : RuleId} {s : Subject} {fs gs : List Finding}

/-- A finding names the rule that reported it. -/
theorem Passes.rule (h : Passes s r fs) : ∀ f ∈ fs, f.rule = r := by
  cases h with
  | along h _ => exact h.rule
  | across hf hg _ =>
    intro f hm
    rcases List.mem_append.mp hm with hm | hm
    · exact hf.rule f hm
    · exact hg.rule f hm
  | once h => exact h.rule

variable (hs : s.tags.Pairwise fun t u => t.location.line < u.location.line)
include hs

theorem Reports.inOrder {fits : Tag → String → Prop} {ts : List Tag}
    (h : Reports r fits ts fs) (hts : ts.Sublist s.tags) : fs.Pairwise (InOrder s) :=
  (h.pairwise Location.atOrBefore_refl ((hs.sublist hts).imp .inl)).imp .inl

/-- The findings of one rule are in order, apart from those of crossing tags. -/
theorem Passes.inOrder (h : Passes s r fs) : fs.Pairwise (InOrder s) := by
  cases h with
  | along h hts => exact h.inOrder hs hts
  | across hf hg hcross =>
    refine List.pairwise_append.mpr
      ⟨hf.inOrder hs List.filter_sublist, hg.inOrder hs List.filter_sublist, ?_⟩
    intro f hfm g hgm
    obtain ⟨t, ht, -, hft⟩ := hf.exists_tag f hfm
    obtain ⟨u, hu, -, hgu⟩ := hg.exists_tag g hgm
    rw [List.mem_filter] at ht hu
    refine .inr ⟨t, ht.1, u, hu.1, hft, hgu, ?_⟩
    rw [hf.rule f hfm]
    exact hcross t u ht.2 hu.2
  | once h =>
    obtain rfl | ⟨f, rfl, -⟩ := h
    · exact .nil
    · exact List.pairwise_singleton _ f

end

theorem passes_apply (choice : Choice) (s : Subject) (r : RuleId) :
    Passes s r (apply choice s r) := by
  by_cases hr : goesAlong r = true
  · obtain ⟨fits, ts, h, hts⟩ := exists_reports choice s hr
    exact .along h hts
  cases r with
  | checkRedundantAccess =>
    obtain ⟨repeated, against, he, hrepeated, hagainst⟩ := checkRedundantAccess_eq choice s
    rw [apply, he]
    exact .across hrepeated hagainst fun _ _ ht hu => ⟨ht, hu⟩
  | leadingUnderscoreAccess =>
    obtain ⟨short, explicit, he, hshort, hexplicit⟩ | he := leadingUnderscoreAccess_eq choice s
    · rw [apply, he]
      exact .across hshort hexplicit fun _ _ ht hu => ⟨ht, hu⟩
    · have honce : ReportsOnce .leadingUnderscoreAccess (fun _ => True)
          (leadingUnderscoreAccess choice s) := .inr ⟨_, he, rfl, trivial⟩
      exact .once honce
  | enforceExistence => exact .once (reportsOnce_enforceExistence choice s)
  | requireNewlineAfterDescription => exact .once (reportsOnce_requireNewlineAfterDescription s)
  | disallowNewlineAfterDescription => exact .once (reportsOnce_disallowNewlineAfterDescription s)
  | requireDescriptionCompleteSentence =>
    exact .once (reportsOnce_requireDescriptionCompleteSentence s)
  | _ => exact absurd rfl hr

/-! ## All rules -/

theorem passes_run (config : Config) (s : Subject) (r : RuleId) :
    Passes s r (run config s r) := by
  unfold run
  split
  · exact passes_apply _ s r
  · have hnone : ReportsOnce r (fun _ => False) [] := .inl rfl
    exact .once hnone

/-- The findings of a function come by rules, in the order in which the rules are listed. Those
of one rule come by lines and columns; only the rules on access report all tags of one kind
before those of the other kind, in whatever order these stand. -/
theorem evaluate_ordered (config : Config) (raw : Option (String × Location))
    (signature : Signature) :
    let s : Subject := ⟨raw.map fun (text, start) => Comment.parse text start, signature⟩
    (evaluate config s).Pairwise fun f g =>
      RuleId.all.idxOf f.rule ≤ RuleId.all.idxOf g.rule ∧ (f.rule = g.rule → InOrder s f g) := by
  intro s
  have hs : s.tags.Pairwise fun t u => t.location.line < u.location.line := by
    cases raw with
    | none => exact .nil
    | some written => exact Comment.pairwise_line_tags written.1 written.2
  have hrules : RuleId.all.Pairwise fun r r' => RuleId.all.idxOf r < RuleId.all.idxOf r' := by
    decide
  rw [evaluate_eq_flatMap_run, List.pairwise_flatMap]
  have hrule : ∀ r, ∀ f ∈ run config s r, f.rule = r := fun r => (passes_run config s r).rule
  -- within a rule by how it goes over the tags, between two rules by their places in the list
  refine ⟨fun r _ => ?_, hrules.imp fun hlt f hf g hg => ?_⟩
  · have hinOrder := (passes_run config s r).inOrder hs
    refine hinOrder.imp_of_mem fun hf hg h => ⟨Nat.le_of_eq ?_, fun _ => h⟩
    rw [hrule r _ hf, hrule r _ hg]
  · rw [hrule _ f hf, hrule _ g hg]
    exact ⟨Nat.le_of_lt hlt, fun he => absurd (he ▸ hlt) (Nat.lt_irrefl _)⟩

/-- A rule on access may report a tag before one that stands above it: a second declaration below
a short tag, and a short tag below a first declaration. -/
theorem evaluate_out_of_order :
    (∃ config, Config.resolve [(.str "checkRedundantAccess", .str "enforceLeadingUnderscore")] =
        .ok config ∧
      (evaluate config ⟨some (Comment.parse "/**\n * @private\n * @access private\n */" .start),
        ⟨"_f", [], .privately, .leading, .none, false, .start⟩⟩).map
          (fun f => (f.rule, f.location)) =
        [(.checkRedundantAccess, ⟨3, 3⟩), (.checkRedundantAccess, ⟨2, 3⟩)]) ∧
    ∃ config, Config.resolve [(.str "leadingUnderscoreAccess", .bool true)] = .ok config ∧
      (evaluate config ⟨some (Comment.parse "/**\n * @access public\n * @public\n */" .start),
        ⟨"_f", [], .privately, .leading, .none, false, .start⟩⟩).map
          (fun f => (f.rule, f.location)) =
        [(.leadingUnderscoreAccess, ⟨3, 3⟩), (.leadingUnderscoreAccess, ⟨2, 3⟩)] :=
  ⟨⟨_, rfl, by decide +kernel⟩, ⟨_, rfl, by decide +kernel⟩⟩

end Rule

end DocCheck
