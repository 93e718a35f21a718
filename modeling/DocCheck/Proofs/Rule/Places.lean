import DocCheck.Proofs.Rule.Independence
import DocCheck.Proofs.Rule.Moved

/-!
# Where findings are

A finding is at a tag, at the comment or at the function, and which of these it
is does not depend on where the comment stands. If there is no comment, only
that something is missing can be reported, and that is reported at the function.

Results:

* `isPlaced_apply`: what each rule reports is where it should be.
* `Passes.length_le_one`: without tags a rule reports one finding at most.
* `evaluate_placed`: where all findings are, how they move with the comment, and what is reported
  without one.
-/
namespace DocCheck.Rule

/-! ## The places of findings -/

/-- The finding is about the description of a comment that has one. -/
def ofDescription (s : Subject) (f : Finding) : Bool :=
  f.rule = .requireDescriptionCompleteSentence ∧
    s.comment.any (fun c => !c.descriptionText.isEmpty) = true

/-- A finding about the signature is where the function is, one about a description where the
comment is, and every other one at a tag. -/
def IsPlaced (s : Subject) (f : Finding) : Prop :=
  if ofSignature s.signature f then f.location = s.signature.location
  else if ofDescription s f then ∃ c ∈ s.comment, f.location = c.location
  else ∃ t ∈ s.tags, f.location = t.location

section

variable {s : Subject} {fs : List Finding} {f : Finding}

theorem isPlaced_of_tag {t : Tag} (ht : t ∈ s.tags) (hloc : f.location = t.location)
    (hs : ofSignature s.signature f = false) (hd : ofDescription s f = false) : IsPlaced s f := by
  rw [IsPlaced, hs, hd]
  exact ⟨t, ht, hloc⟩

theorem isPlaced_of_signature (hs : ofSignature s.signature f = true)
    (hloc : f.location = s.signature.location) : IsPlaced s f := by
  rw [IsPlaced, if_pos hs]
  exact hloc

/-- What a rule reports at tags is placed, if it is not about what is missing. -/
theorem Reports.isPlaced {r : RuleId} {fits : Tag → String → Prop} {ts : List Tag}
    (h : Reports r fits ts fs) (hts : ts.Sublist s.tags)
    (hr : r ≠ .enforceExistence ∧ r ≠ .requireDescriptionCompleteSentence)
    (hm : r = .leadingUnderscoreAccess → ∀ t m, fits t m → m ≠ missingAccess s.signature) :
    ∀ f ∈ fs, IsPlaced s f := by
  intro f hf
  obtain ⟨t, ht, hfits, hloc⟩ := h.exists_tag f hf
  have hrule := h.rule f hf
  refine isPlaced_of_tag (hts.subset ht) hloc ?_ ?_
  · simp only [ofSignature, hrule, hr.1, false_or, decide_eq_false_iff_not, not_and]
    exact fun he => hm he t f.message hfits
  · simp [ofDescription, hrule, hr.2]

theorem isPlaced_leadingUnderscoreAccess (choice : Choice) :
    ∀ f ∈ leadingUnderscoreAccess choice s, IsPlaced s f := by
  obtain ⟨short, explicit, he, hshort, hexplicit⟩ | he := leadingUnderscoreAccess_eq choice s
  · intro f hf
    rw [he, List.mem_append] at hf
    rcases hf with hf | hf
    · exact hshort.isPlaced List.filter_sublist (by decide)
        (fun _ _ _ hm => ne_missingAccess_of_levelProblem hm) f hf
    · exact hexplicit.isPlaced List.filter_sublist (by decide)
        (fun _ _ _ hm => ne_missingAccess_of_levelProblem hm) f hf
  · rw [he, ← missingAccess_eq]
    intro f hf
    cases List.mem_singleton.mp hf
    exact isPlaced_of_signature (by simp [ofSignature]) rfl

theorem isPlaced_checkRedundantAccess (choice : Choice) :
    ∀ f ∈ checkRedundantAccess choice s, IsPlaced s f := by
  obtain ⟨repeated, against, he, hrepeated, hagainst⟩ := checkRedundantAccess_eq choice s
  intro f hf
  rw [he, List.mem_append] at hf
  rcases hf with hf | hf
  · exact hrepeated.isPlaced List.filter_sublist (by decide) (by simp) f hf
  · exact hagainst.isPlaced List.filter_sublist (by decide) (by simp) f hf

theorem isPlaced_enforceExistence (choice : Choice) :
    ∀ f ∈ enforceExistence choice s, IsPlaced s f := by
  unfold enforceExistence
  split
  · simp
  · split
    · intro f hf
      cases List.mem_singleton.mp hf
      exact isPlaced_of_signature (by simp [ofSignature]) rfl
    · simp

theorem mem_tags_of_gapBeforeTags {blanks : Nat} {t : Tag}
    (h : gapBeforeTags? s = some (blanks, t)) : t ∈ s.tags := by
  obtain ⟨comment, signature⟩ := s
  cases comment with
  | none => cases h
  | some c =>
    obtain ⟨description, tags, n, location⟩ := c
    cases description with
    | nil => cases h
    | cons _ _ =>
      cases tags with
      | nil => cases h
      | cons t' ts =>
        cases h
        exact List.mem_cons_self

theorem isPlaced_of_gap {r : RuleId} {message : String} {blanks : Nat} {t : Tag}
    (h : gapBeforeTags? s = some (blanks, t)) (hr : r ≠ .enforceExistence ∧
      r ≠ .leadingUnderscoreAccess ∧ r ≠ .requireDescriptionCompleteSentence) :
    IsPlaced s ⟨r, message, t.location⟩ := by
  obtain ⟨hexistence, haccess, hsentence⟩ := hr
  exact isPlaced_of_tag (mem_tags_of_gapBeforeTags h) rfl
    (by simp [ofSignature, hexistence, haccess]) (by simp [ofDescription, hsentence])

theorem isPlaced_requireNewlineAfterDescription :
    ∀ f ∈ requireNewlineAfterDescription s, IsPlaced s f := by
  unfold requireNewlineAfterDescription
  split
  · rename_i t h
    intro f hf
    cases List.mem_singleton.mp hf
    exact isPlaced_of_gap h (by decide)
  · simp

theorem isPlaced_disallowNewlineAfterDescription :
    ∀ f ∈ disallowNewlineAfterDescription s, IsPlaced s f := by
  unfold disallowNewlineAfterDescription
  split
  · rename_i blanks t h
    intro f hf
    cases List.mem_singleton.mp hf
    exact isPlaced_of_gap h (by decide)
  · simp

/-- The sentence is the description if there is one, else what the first `@param` with a
description says. -/
theorem place_of_sentence {c : Comment} {text : String} {l : Location}
    (h : sentence? c = some (text, l)) :
    if c.descriptionText.isEmpty then ∃ t ∈ c.tags, l = t.location else l = c.location := by
  unfold sentence? at h
  split at h
  · rw [if_pos ‹_›]
    obtain ⟨t, ht, hd⟩ := List.exists_of_findSome?_eq_some h
    obtain ⟨d, -, hl⟩ := Option.map_eq_some_iff.mp hd
    exact ⟨t, List.mem_of_mem_filter ht, (congrArg Prod.snd hl).symm⟩
  · rw [if_neg ‹_›]
    exact (congrArg Prod.snd (Option.some.inj h)).symm

theorem isPlaced_requireDescriptionCompleteSentence :
    ∀ f ∈ requireDescriptionCompleteSentence s, IsPlaced s f := by
  unfold requireDescriptionCompleteSentence
  split
  · rename_i text l h
    obtain ⟨c, hc, hl⟩ := Option.bind_eq_some_iff.mp h
    have htags : s.tags = c.tags := by rw [Subject.tags, hc]
    split
    · simp
    · intro f hf
      cases List.mem_singleton.mp hf
      have hl := place_of_sentence hl
      by_cases hd : c.descriptionText.isEmpty = true
      · rw [if_pos hd] at hl
        obtain ⟨t, ht, hl⟩ := hl
        exact isPlaced_of_tag (htags ▸ ht) hl (by simp [ofSignature])
          (by simp [ofDescription, hc, hd])
      · rw [if_neg hd] at hl
        rw [IsPlaced, if_neg (by simp [ofSignature]), if_pos (by simp [ofDescription, hc, hd])]
        exact ⟨c, hc, hl⟩
  · simp

/-- Every finding of a rule is placed. -/
theorem isPlaced_apply (choice : Choice) (r : RuleId) : ∀ f ∈ apply choice s r, IsPlaced s f := by
  by_cases hr : goesAlong r = true
  · obtain ⟨fits, ts, h, hts⟩ := exists_reports choice s hr
    refine h.isPlaced hts ⟨?_, ?_⟩ ?_ <;>
    · rintro rfl
      cases hr
  cases r with
  | checkRedundantAccess => exact isPlaced_checkRedundantAccess choice
  | leadingUnderscoreAccess => exact isPlaced_leadingUnderscoreAccess choice
  | enforceExistence => exact isPlaced_enforceExistence choice
  | requireNewlineAfterDescription => exact isPlaced_requireNewlineAfterDescription
  | disallowNewlineAfterDescription => exact isPlaced_disallowNewlineAfterDescription
  | requireDescriptionCompleteSentence => exact isPlaced_requireDescriptionCompleteSentence
  | _ => exact absurd rfl hr

theorem isPlaced_of_mem_evaluate (config : Config) : ∀ f ∈ evaluate config s, IsPlaced s f := by
  intro f hf
  obtain ⟨p, -, hf⟩ := List.mem_flatMap.mp hf
  exact isPlaced_apply p.2 p.1 f hf

end

/-! ## Functions without a comment -/

/-- Where no tag is to report, a rule reports one finding at most. -/
theorem Passes.length_le_one {s : Subject} {r : RuleId} {fs : List Finding} (h : Passes s r fs)
    (htags : s.tags = []) : fs.length ≤ 1 := by
  have hnil : ∀ {fits ts gs}, Reports r fits ts gs → ts.Sublist s.tags → gs = [] := by
    intro fits ts gs hg hts
    rw [htags, List.sublist_nil] at hts
    subst hts
    cases hg
    rfl
  cases h with
  | along h hts => simp [hnil h hts]
  | across hf hg _ => simp [hnil hf List.filter_sublist, hnil hg List.filter_sublist]
  | once h => obtain rfl | ⟨f, rfl, -⟩ := h <;> simp

theorem rules_run_sublist {config : Config} {s : Subject} (htags : s.tags = []) (r : RuleId) :
    ((run config s r).map Finding.rule).Sublist [r] := by
  have hlength := (passes_run config s r).length_le_one htags
  have hrule := rule_run config s r
  cases h : run config s r with
  | nil => exact List.nil_sublist _
  | cons f fs =>
    rw [h] at hlength hrule
    have hnil : fs = [] := List.eq_nil_of_length_eq_zero (by simpa using hlength)
    rw [hnil, List.map_singleton, hrule f List.mem_cons_self]

theorem ofSignature_of_mem_uncommented {config : Config} {signature : Signature} {f : Finding}
    (hf : f ∈ evaluate config ⟨none, signature⟩) :
    ofSignature signature f = true ∧ f.location = signature.location := by
  have h := isPlaced_of_mem_evaluate config f hf
  by_cases hs : ofSignature signature f = true
  · rw [IsPlaced, if_pos hs] at h
    exact ⟨hs, h⟩
  · rw [IsPlaced, if_neg hs, if_neg (by simp [ofDescription])] at h
    obtain ⟨t, ht, -⟩ := h
    cases ht

/-- The rule can report that something is missing: the comment, or a tag for access. -/
def reportsAbsence (r : RuleId) : Bool := r = .leadingUnderscoreAccess ∨ r = .enforceExistence

/-- Of a function without a comment two rules can say that something is missing, once each. -/
theorem rules_uncommented_sublist (config : Config) (signature : Signature) :
    ((evaluate config ⟨none, signature⟩).map Finding.rule).Sublist
      [.leadingUnderscoreAccess, .enforceExistence] := by
  have hrules : ∀ f ∈ evaluate config ⟨none, signature⟩, reportsAbsence f.rule = true := by
    intro f hf
    have hs := (ofSignature_of_mem_uncommented hf).1
    simp only [ofSignature, decide_eq_true_eq] at hs
    simp only [reportsAbsence, decide_eq_true_eq]
    exact hs.elim .inr fun h => .inl h.1
  have hruns : evaluate config ⟨none, signature⟩ =
      run config ⟨none, signature⟩ .leadingUnderscoreAccess ++
        run config ⟨none, signature⟩ .enforceExistence := by
    have hall : RuleId.all.filter reportsAbsence =
        [.leadingUnderscoreAccess, .enforceExistence] := by
      decide
    rw [← List.filter_eq_self.mpr hrules, filter_evaluate, hall]
    simp
  rw [hruns, List.map_append]
  exact (rules_run_sublist rfl _).append (rules_run_sublist rfl _)

/-! ## All findings -/

/-- What is missing is reported at the function, what is wrong with a description at the comment,
and everything else at a tag. If the comment stands at another place, the same rules say the same
in the same order; the findings move with the comment, except for those about the function.
If there is no comment, two rules can report that, once each and at the function. -/
theorem evaluate_placed (config : Config) (signature : Signature) :
    (∀ raw start,
      let comment := Comment.parse raw start
      (∀ f ∈ evaluate config ⟨some comment, signature⟩,
        if f.rule = .enforceExistence ∨
            f.rule = .leadingUnderscoreAccess ∧ f.message = missingAccess signature then
          f.location = signature.location
        else if f.rule = .requireDescriptionCompleteSentence ∧ comment.description ≠ [] then
          f.location = start
        else ∃ t ∈ comment.tags, f.location = t.location) ∧
      ∀ start', evaluate config ⟨some (Comment.parse raw start'), signature⟩ =
        (evaluate config ⟨some comment, signature⟩).map
          (relocate signature (start.moved start'))) ∧
    ((evaluate config ⟨none, signature⟩).map Finding.rule).Sublist
      [.leadingUnderscoreAccess, .enforceExistence] ∧
    ∀ f ∈ evaluate config ⟨none, signature⟩, f.location = signature.location := by
  refine ⟨fun raw start => ⟨fun f hf => ?_, fun start' => ?_⟩,
    rules_uncommented_sublist config signature,
    fun f hf => (ofSignature_of_mem_uncommented hf).2⟩
  · have h := isPlaced_of_mem_evaluate config f hf
    have hstart : (Comment.parse raw start).location = start := rfl
    have hempty := (Comment.isRead_parse raw start).isEmpty_descriptionText
    simpa [IsPlaced, ofSignature, ofDescription, Subject.tags, hstart, hempty] using h
  · have hmoved : (⟨some (Comment.parse raw start'), signature⟩ : Subject) =
        Subject.relocate (start.moved start') ⟨some (Comment.parse raw start), signature⟩ := by
      rw [Comment.parse_moved raw start start']
      rfl
    rw [hmoved, evaluate_relocate]

end DocCheck.Rule
