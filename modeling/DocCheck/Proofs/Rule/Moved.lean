import DocCheck.Proofs.Comment.Moved
import DocCheck.Proofs.Rule.Reports

/-!
# Findings of a comment that is moved

Rules compare what tags say and never where they are. So of a comment that stands
at another place a rule says the same, and says it at the other place; only what is
said of the signature stays where it was.

Results:

* `ne_missingAccess_of_levelProblem`: what is said of a declared access level is not what is said of
  a missing one.
* `checkAnnotations_relocate` and its like: each rule says the same of a comment at another place.
* `apply_relocate`, `evaluate_relocate`: all rules do.
-/
namespace DocCheck

/-! ## Tags at other places -/

section

variable (g : Location → Location)

/-- What rules see of the function when its comment stands at another place. -/
def Subject.relocate (s : Subject) : Subject := ⟨s.comment.map (Comment.relocate g), s.signature⟩

namespace Tag

@[simp] theorem relocate_type (t : Tag) : (t.relocate g).type = t.type := rfl
@[simp] theorem relocate_paramName (t : Tag) : (t.relocate g).paramName = t.paramName := rfl
@[simp] theorem relocate_description (t : Tag) : (t.relocate g).description = t.description := rfl
@[simp] theorem relocate_keyword (t : Tag) : (t.relocate g).keyword = t.keyword := rfl

end Tag

namespace Subject

@[simp] theorem relocate_signature (s : Subject) : (s.relocate g).signature = s.signature := rfl

@[simp] theorem relocate_tags (s : Subject) :
    (s.relocate g).tags = s.tags.map (Tag.relocate g) := by
  obtain ⟨c, signature⟩ := s
  cases c <;> rfl

/-- Tags are chosen by what they say, wherever they stand. -/
theorem filter_relocate {p : Tag → Bool} (hp : ∀ t : Tag, p (t.relocate g) = p t) (ts : List Tag) :
    (ts.map (Tag.relocate g)).filter p = (ts.filter p).map (Tag.relocate g) := by
  rw [List.filter_map]
  congr 2
  exact funext hp

@[simp] theorem relocate_tagsNamed (s : Subject) (name : String) :
    (s.relocate g).tagsNamed name = (s.tagsNamed name).map (Tag.relocate g) := by
  rw [tagsNamed, relocate_tags]
  exact filter_relocate g (fun _ => rfl) _

@[simp] theorem relocate_paramTags (s : Subject) :
    (s.relocate g).paramTags = s.paramTags.map (Tag.relocate g) :=
  relocate_tagsNamed g s "param"

@[simp] theorem relocate_returnTags (s : Subject) :
    (s.relocate g).returnTags = s.returnTags.map (Tag.relocate g) := by
  rw [returnTags, relocate_tags]
  exact filter_relocate g (fun _ => rfl) _

end Subject

end

/-! ## Findings about the signature -/

namespace Rule

/-- What is said of a private name that declares no access level. -/
def missingAccess (signature : Signature) : String :=
  "Missing access tag for '" ++ signature.name ++ "'"

-- `rw` and `simp` cannot unfold the definition in reasonable time
theorem missingAccess_eq (signature : Signature) :
    missingAccess signature = "Missing access tag for '" ++ signature.name ++ "'" := rfl

/-- The finding says of the function that something is missing: the comment, or a tag for access. -/
def ofSignature (signature : Signature) (f : Finding) : Bool :=
  f.rule = .enforceExistence ∨
    f.rule = .leadingUnderscoreAccess ∧ f.message = missingAccess signature

/-- The finding when the comment stands at another place; what is said of the signature stays. -/
def relocate (signature : Signature) (g : Location → Location) (f : Finding) : Finding :=
  if ofSignature signature f then f else { f with location := g f.location }

section

variable (g : Location → Location) (s : Subject)

theorem filterMap_relocate {α : Type} {e : α → α} {h : α → Option Finding}
    (hh : ∀ x, h (e x) = (h x).map (relocate s.signature g)) (xs : List α) :
    (xs.map e).filterMap h = (xs.filterMap h).map (relocate s.signature g) := by
  rw [List.filterMap_map, List.map_filterMap]
  exact List.filterMap_congr fun x _ => hh x

theorem checkAnnotations_relocate (choice : Choice) :
    checkAnnotations choice (s.relocate g) =
      (checkAnnotations choice s).map (relocate s.signature g) := by
  simp only [checkAnnotations, Subject.relocate_tags]
  refine filterMap_relocate g s (fun t => ?_) _
  rw [Option.map_map]
  rfl

theorem checkTypes_relocate (choice : Choice) :
    checkTypes choice (s.relocate g) = (checkTypes choice s).map (relocate s.signature g) := by
  simp only [checkTypes, Subject.relocate_tags, List.flatMap_map, List.map_flatMap]
  refine congrArg (fun k => s.tags.flatMap k) (funext fun t => ?_)
  rw [Tag.relocate_type, Tag.relocate_keyword]
  cases t.type with
  | none => rfl
  | some type =>
    simp only
    split
    · rw [List.map_map]
      rfl
    · rfl

theorem relocate_of_ne {r : RuleId} (hr : r ≠ .enforceExistence ∧ r ≠ .leadingUnderscoreAccess)
    (message : String) (l : Location) :
    relocate s.signature g ⟨r, message, l⟩ = ⟨r, message, g l⟩ := by
  simp [relocate, ofSignature, hr.1, hr.2]

/-- A finding at a tag under a condition that does not depend on places. -/
theorem ite_relocate {r : RuleId} (hr : r ≠ .enforceExistence ∧ r ≠ .leadingUnderscoreAccess)
    (c : Prop) [Decidable c] (message : String) (l : Location) :
    (if c then some (⟨r, message, g l⟩ : Finding) else none) =
      (if c then some ⟨r, message, l⟩ else none).map (relocate s.signature g) := by
  rw [apply_ite (Option.map _), Option.map_some, relocate_of_ne g s hr, Option.map_none]

theorem requireParamTypes_relocate :
    requireParamTypes (s.relocate g) = (requireParamTypes s).map (relocate s.signature g) := by
  simp only [requireParamTypes, Subject.relocate_paramTags]
  exact filterMap_relocate g s (fun t => ite_relocate g s (by decide) _ _ _) _

theorem requireParamDescription_relocate :
    requireParamDescription (s.relocate g) =
      (requireParamDescription s).map (relocate s.signature g) := by
  simp only [requireParamDescription, Subject.relocate_paramTags]
  exact filterMap_relocate g s (fun t => ite_relocate g s (by decide) _ _ _) _

theorem requireHyphenBeforeDescription_relocate :
    requireHyphenBeforeDescription (s.relocate g) =
      (requireHyphenBeforeDescription s).map (relocate s.signature g) := by
  simp only [requireHyphenBeforeDescription, Subject.relocate_paramTags]
  refine filterMap_relocate g s (fun t => ?_) _
  cases h : hasHyphen t <;> simp [show hasHyphen (t.relocate g) = hasHyphen t from rfl, h]; rfl

theorem requireReturnTypes_relocate :
    requireReturnTypes (s.relocate g) = (requireReturnTypes s).map (relocate s.signature g) := by
  simp only [requireReturnTypes, Subject.relocate_returnTags]
  exact filterMap_relocate g s (fun t => ite_relocate g s (by decide) _ _ _) _

theorem isAbstract_relocate : isAbstract (s.relocate g) = isAbstract s := by
  rw [isAbstract, Subject.relocate_tags, List.any_map]
  rfl

theorem checkRedundantReturns_relocate :
    checkRedundantReturns (s.relocate g) =
      (checkRedundantReturns s).map (relocate s.signature g) := by
  rw [checkRedundantReturns, checkRedundantReturns, isAbstract_relocate,
    Subject.relocate_returnTags, Subject.relocate_signature]
  split
  · rfl
  · rw [List.map_map, List.map_map]
    rfl

theorem checkReturnTypes_relocate :
    checkReturnTypes (s.relocate g) = (checkReturnTypes s).map (relocate s.signature g) := by
  rw [checkReturnTypes, checkReturnTypes, Subject.relocate_returnTags, Subject.relocate_signature]
  split
  · rfl
  · refine filterMap_relocate g s (fun t => ?_) _
    rw [Tag.relocate_type]
    split <;> rfl

theorem positionalFrom_relocate (described : List String) (ts : List Tag) :
    positionalFrom described (ts.map (Tag.relocate g)) =
      (positionalFrom described ts).map (Tag.relocate g) := by
  induction ts generalizing described with
  | nil => rfl
  | cons t ts ih =>
    simp only [List.map_cons, positionalFrom, Tag.relocate_paramName, ih]
    split
    · rfl
    · split
      · split <;> rfl
      · rfl

theorem zipIdx_positional_relocate :
    (positional (s.relocate g)).zipIdx =
      (positional s).zipIdx.map fun p => (p.1.relocate g, p.2) := by
  rw [positional, Subject.relocate_paramTags, positionalFrom_relocate, List.zipIdx_map]
  rfl

theorem checkParamNames_relocate :
    checkParamNames (s.relocate g) = (checkParamNames s).map (relocate s.signature g) := by
  rw [checkParamNames, zipIdx_positional_relocate]
  refine filterMap_relocate g s (fun p => ?_) _
  rw [Option.map_map]
  rfl

theorem checkRedundantParams_relocate :
    checkRedundantParams (s.relocate g) =
      (checkRedundantParams s).map (relocate s.signature g) := by
  rw [checkRedundantParams, zipIdx_positional_relocate]
  refine filterMap_relocate g s (fun p => ?_) _
  simp only [Tag.relocate_paramName]
  cases p.1.paramName with
  | none => rfl
  | some name => exact ite_relocate g s (by decide) _ _ _

/-! ## Rules on access -/

theorem shortAccess_relocate :
    shortAccess (s.relocate g) = (shortAccess s).map fun p => (p.1, p.2.relocate g) := by
  rw [shortAccess, Subject.relocate_tags, Subject.filter_relocate g fun _ => rfl, List.map_map,
    shortAccess, List.map_map]
  rfl

theorem explicitAccess_relocate :
    explicitAccess (s.relocate g) = (explicitAccess s).map fun p => (p.1, p.2.relocate g) := by
  rw [explicitAccess, Subject.relocate_tagsNamed, List.map_map, explicitAccess, List.map_map]
  rfl

theorem checkRedundantAccess_relocate (choice : Choice) :
    checkRedundantAccess choice (s.relocate g) =
      (checkRedundantAccess choice s).map (relocate s.signature g) := by
  have hlevels : ((shortAccess s).map fun p => (p.1, p.2.relocate g)).map Prod.fst =
      (shortAccess s).map Prod.fst := by
    rw [List.map_map]
    rfl
  simp only [checkRedundantAccess, shortAccess_relocate, explicitAccess_relocate, hlevels,
    Subject.relocate_signature]
  rw [filterMap_relocate g s fun ⟨level, t⟩ => ite_relocate g s (by decide) _ _ _]
  split
  · rfl
  · split
    · rfl
    · rw [List.map_append]
      refine congrArg _ (filterMap_relocate g s (fun ⟨level, t⟩ => ?_) _)
      simp only [Option.map_map]
      rfl

theorem head_levelProblem {choice : Choice} {name level m : String}
    (h : levelProblem? choice name level = some m) : m.toList.head? = some 'A' := by
  have hword : ∀ rest : List Char, ("Access of '".toList ++ rest).head? = some 'A' := fun _ => rfl
  unfold levelProblem? at h
  simp only at h
  split at h
  · split at h
    · cases h
    · rw [← Option.some.inj h]
      simp only [String.toList_append, List.append_assoc, hword]
  · split at h
    · rw [← Option.some.inj h]
      simp only [String.toList_append, List.append_assoc, hword]
    · cases h

/-- No message about a declared level is the one about a missing level. -/
theorem ne_missingAccess_of_levelProblem {choice : Choice} {signature : Signature}
    {level m : String} (h : levelProblem? choice signature.name level = some m) :
    m ≠ missingAccess signature := by
  have hword : "Missing access tag for '".toList.head? = some 'M' := by decide +kernel
  intro he
  have hhead : (missingAccess signature).toList.head? = some 'A' := he ▸ head_levelProblem h
  simp only [missingAccess_eq, String.toList_append, List.append_assoc, List.head?_append,
    hword] at hhead
  simp at hhead

theorem leadingUnderscoreAccess_relocate (choice : Choice) :
    leadingUnderscoreAccess choice (s.relocate g) =
      (leadingUnderscoreAccess choice s).map (relocate s.signature g) := by
  simp only [leadingUnderscoreAccess, shortAccess_relocate, explicitAccess_relocate,
    Subject.relocate_signature, ← List.map_append]
  split
  · rfl
  · generalize shortAccess s ++ explicitAccess s = declared
    cases declared with
    | nil =>
      have hstays : ofSignature s.signature
          ⟨.leadingUnderscoreAccess, missingAccess s.signature, s.signature.location⟩ = true := by
        simp [ofSignature]
      exact congrArg (fun f => [f]) (if_pos hstays).symm
    | cons p declared =>
      show ((p :: declared).map fun p => (p.1, p.2.relocate g)).filterMap _ = _
      refine filterMap_relocate g s (fun ⟨level, t⟩ => ?_) (p :: declared)
      rw [Option.map_map]
      refine Option.map_congr fun m hm => ?_
      have hne := ne_missingAccess_of_levelProblem hm
      have hmoves : ofSignature s.signature ⟨.leadingUnderscoreAccess, m, t.location⟩ = false := by
        simp [ofSignature, hne]
      exact (if_neg (by rw [hmoves]; decide)).symm

/-! ## Rules on presence -/

theorem enforceExistence_relocate (choice : Choice) :
    enforceExistence choice (s.relocate g) =
      (enforceExistence choice s).map (relocate s.signature g) := by
  have hempty : (s.relocate g).comment.all Comment.isEmpty = s.comment.all Comment.isEmpty := by
    obtain ⟨comment, signature⟩ := s
    cases comment with
    | none => rfl
    | some c => simp [Subject.relocate, Comment.relocate, Comment.isEmpty]
  rw [enforceExistence, enforceExistence, hempty, Subject.relocate_signature]
  split
  · rfl
  · split <;> rfl

theorem gapBeforeTags_relocate :
    gapBeforeTags? (s.relocate g) = (gapBeforeTags? s).map fun p => (p.1, p.2.relocate g) := by
  obtain ⟨comment, signature⟩ := s
  cases comment with
  | none => rfl
  | some c =>
    obtain ⟨description, tags, blanks, location⟩ := c
    cases description <;> cases tags <;> rfl

theorem requireNewlineAfterDescription_relocate :
    requireNewlineAfterDescription (s.relocate g) =
      (requireNewlineAfterDescription s).map (relocate s.signature g) := by
  rw [requireNewlineAfterDescription, requireNewlineAfterDescription, gapBeforeTags_relocate]
  cases gapBeforeTags? s with
  | none => rfl
  | some p =>
    obtain ⟨blanks, t⟩ := p
    cases blanks <;> rfl

theorem disallowNewlineAfterDescription_relocate :
    disallowNewlineAfterDescription (s.relocate g) =
      (disallowNewlineAfterDescription s).map (relocate s.signature g) := by
  rw [disallowNewlineAfterDescription, disallowNewlineAfterDescription, gapBeforeTags_relocate]
  cases gapBeforeTags? s with
  | none => rfl
  | some p =>
    obtain ⟨blanks, t⟩ := p
    cases blanks <;> rfl

theorem sentence_relocate (c : Comment) :
    sentence? (c.relocate g) = (sentence? c).map fun p => (p.1, g p.2) := by
  have htags : (c.relocate g).tagsNamed "param" = (c.tagsNamed "param").map (Tag.relocate g) :=
    Subject.filter_relocate g (fun _ => rfl) _
  have hsaid : ∀ t : Tag, saidBy? (t.relocate g) = (saidBy? t).map fun p => (p.1, g p.2) := by
    intro t
    rw [saidBy?, Tag.relocate_description, saidBy?, Option.map_map]
    rfl
  have hfind : ∀ ts : List Tag, (ts.map (Tag.relocate g)).findSome? saidBy? =
      (ts.findSome? saidBy?).map fun p => (p.1, g p.2) := by
    intro ts
    induction ts with
    | nil => rfl
    | cons t ts ih =>
      rw [List.map_cons, List.findSome?_cons, List.findSome?_cons, hsaid, ih]
      cases saidBy? t <;> rfl
  rw [sentence?, sentence?, htags, hfind, apply_ite (Option.map _)]
  rfl

theorem requireDescriptionCompleteSentence_relocate :
    requireDescriptionCompleteSentence (s.relocate g) =
      (requireDescriptionCompleteSentence s).map (relocate s.signature g) := by
  have hsentence : (s.relocate g).comment.bind sentence? =
      (s.comment.bind sentence?).map fun p => (p.1, g p.2) := by
    obtain ⟨comment, signature⟩ := s
    cases comment with
    | none => rfl
    | some c => exact sentence_relocate g c
  rw [requireDescriptionCompleteSentence, requireDescriptionCompleteSentence, hsentence]
  cases s.comment.bind sentence? with
  | none => rfl
  | some p =>
    simp only [Option.map_some]
    split <;> rfl

/-! ## All rules -/

/-- A rule says the same of a comment at another place, and says it at the other place. -/
theorem apply_relocate (choice : Choice) (r : RuleId) :
    apply choice (s.relocate g) r = (apply choice s r).map (relocate s.signature g) := by
  cases r with
  | checkAnnotations => exact checkAnnotations_relocate g s choice
  | checkParamNames => exact checkParamNames_relocate g s
  | requireParamTypes => exact requireParamTypes_relocate g s
  | checkRedundantParams => exact checkRedundantParams_relocate g s
  | checkReturnTypes => exact checkReturnTypes_relocate g s
  | checkRedundantReturns => exact checkRedundantReturns_relocate g s
  | requireReturnTypes => exact requireReturnTypes_relocate g s
  | checkTypes => exact checkTypes_relocate g s choice
  | checkRedundantAccess => exact checkRedundantAccess_relocate g s choice
  | leadingUnderscoreAccess => exact leadingUnderscoreAccess_relocate g s choice
  | enforceExistence => exact enforceExistence_relocate g s choice
  | requireHyphenBeforeDescription => exact requireHyphenBeforeDescription_relocate g s
  | requireNewlineAfterDescription => exact requireNewlineAfterDescription_relocate g s
  | disallowNewlineAfterDescription => exact disallowNewlineAfterDescription_relocate g s
  | requireDescriptionCompleteSentence => exact requireDescriptionCompleteSentence_relocate g s
  | requireParamDescription => exact requireParamDescription_relocate g s

theorem evaluate_relocate (config : Config) :
    evaluate config (s.relocate g) = (evaluate config s).map (relocate s.signature g) := by
  rw [evaluate, evaluate, List.map_flatMap]
  exact congrArg (config.enabled.flatMap ·) (funext fun p => apply_relocate g s p.2 p.1)

end

end Rule

end DocCheck
