import DocCheck.Proofs.Comment.Respelled
import DocCheck.Proofs.Rule.Independence

/-!
# Findings of a respelled comment

Rules go by the names of tags, and by their keywords only where they look tags up in a
table, choose the tags whose types are checked, or name a tag in a message. So a comment
with its keywords in other letter case gives the same findings. With another word for a
parameter it gives the same but for what the table of known tags says of that word, and for
the word itself in what is said about a type that cannot be read.

Results:

* `Subject.Alike`: what rules see of a respelled comment.
* `checkTypes_alike`: what is said about types differs in the keyword at most.
* `checkAnnotations_alike`: what is said about tags is the same if the keywords are.
* `apply_alike`: all rules but the one about known tags report alike.
* `evaluate_respelled`: the findings of a comment in another spelling.
-/
namespace DocCheck

open Keyword (IsRespelling)

variable {same : List Char → List Char → Prop} {alike : String → String → Prop}

/-! ## Lists that are alike -/

section

variable {α β : Type} {R : α → α → Prop} {xs ys : List α} (h : List.Forall₂ R xs ys)
include h

theorem isEmpty_eq_of_forall₂ : xs.isEmpty = ys.isEmpty := by cases h <;> rfl

theorem filterMap_eq_of_forall₂ {f : α → Option β} (hf : ∀ x y, R x y → f x = f y) :
    xs.filterMap f = ys.filterMap f := by
  induction h with
  | nil => rfl
  | cons hxy _ ih => rw [List.filterMap_cons, List.filterMap_cons, hf _ _ hxy, ih]

theorem map_eq_of_forall₂ {f : α → β} (hf : ∀ x y, R x y → f x = f y) : xs.map f = ys.map f := by
  induction h with
  | nil => rfl
  | cons hxy _ ih => rw [List.map_cons, List.map_cons, hf _ _ hxy, ih]

theorem findSome_eq_of_forall₂ {f : α → Option β} (hf : ∀ x y, R x y → f x = f y) :
    xs.findSome? f = ys.findSome? f := by
  induction h with
  | nil => rfl
  | cons hxy _ ih => rw [List.findSome?_cons, List.findSome?_cons, hf _ _ hxy, ih]

/-- What is chosen alike from both lists is alike, and was chosen. -/
theorem forall₂_filter {p : α → Bool} (hp : ∀ x y, R x y → p x = p y) :
    List.Forall₂ (fun x y => R x y ∧ p x = true) (xs.filter p) (ys.filter p) := by
  induction h with
  | nil => exact .nil
  | cons hxy _ ih =>
    rw [List.filter_cons, List.filter_cons, ← hp _ _ hxy]
    split
    · rename_i hx
      exact .cons ⟨hxy, hx⟩ ih
    · exact ih

theorem forall₂_zipIdx (n : Nat) :
    List.Forall₂ (fun p q => R p.1 q.1 ∧ p.2 = q.2) (xs.zipIdx n) (ys.zipIdx n) := by
  induction h generalizing n with
  | nil => exact .nil
  | cons hxy _ ih => exact .cons ⟨hxy, rfl⟩ (ih (n + 1))

end

/-! ## What rules see -/

/-- The comments say the same but for the keywords of their tags, and the signature is one. -/
structure Subject.Alike (alike : String → String → Prop) (s s' : Subject) : Prop where
  comment : Option.Rel (Comment.Alike alike) s.comment s'.comment
  signature : s.signature = s'.signature

namespace Tag.Alike

variable {t t' : Tag} (h : Tag.Alike alike t t')
include h

theorem label : t.label = t'.label := by
  unfold Tag.label
  rw [h.paramName]

theorem hasUnknownType : t.hasUnknownType = t'.hasUnknownType := by
  unfold Tag.hasUnknownType
  rw [h.type]

theorem hasHyphen : Rule.hasHyphen t = Rule.hasHyphen t' := by
  unfold Rule.hasHyphen
  rw [h.description]

theorem levelOf : Rule.levelOf t = Rule.levelOf t' := by
  unfold Rule.levelOf
  rw [h.valueText]

end Tag.Alike

namespace Subject.Alike

variable {s s' : Subject} (h : s.Alike alike s')
include h

theorem tags : List.Forall₂ (Tag.Alike alike) s.tags s'.tags := by
  obtain ⟨comment, signature⟩ := s
  obtain ⟨comment', signature'⟩ := s'
  cases h.comment with
  | none => exact .nil
  | some hc => exact hc.tags

theorem tagsNamed (name : String) :
    List.Forall₂ (Tag.Alike alike) (s.tagsNamed name) (s'.tagsNamed name) := by
  refine (forall₂_filter h.tags fun t t' ht => ?_).imp fun _ _ ht => ht.1
  rw [ht.name]

theorem paramTags : List.Forall₂ (Tag.Alike alike) s.paramTags s'.paramTags := h.tagsNamed "param"

/-- The tags of return values have the same keywords: none of these goes for another. -/
theorem returnTags : List.Forall₂ (fun t t' => Tag.Alike alike t t' ∧ t.keyword = t'.keyword)
    s.returnTags s'.returnTags := by
  refine (forall₂_filter h.tags fun t t' ht => by rw [ht.name]).imp ?_
  rintro t t' ⟨ht, hname⟩
  refine ⟨ht, ht.ofName fun hparam => ?_⟩
  rw [hparam] at hname
  exact absurd hname (by decide)

end Subject.Alike

/-! ## Rules -/

/-- The findings are of one rule and at one place, and say the same but for the keyword of a type
that cannot be read. -/
structure Finding.Alike (alike : String → String → Prop) (f f' : Finding) : Prop where
  rule : f.rule = f'.rule
  location : f.location = f'.location
  message : f.message = f'.message ∨ f.rule = .checkTypes ∧ ∃ written keyword keyword',
    alike keyword keyword' ∧ f.message = "Invalid type '" ++ written ++ "' in @" ++ keyword ∧
      f'.message = "Invalid type '" ++ written ++ "' in @" ++ keyword'

theorem Finding.Alike.refl (f : Finding) : Finding.Alike alike f f := ⟨rfl, rfl, .inl rfl⟩

theorem Finding.Alike.eq {f f' : Finding} (h : Finding.Alike Eq f f') : f = f' := by
  obtain ⟨rule, message, location⟩ := f
  obtain ⟨rule', message', location'⟩ := f'
  obtain ⟨hrule, hlocation, hsays⟩ := h
  have hmessage : message = message' := by
    obtain heq | ⟨-, written, keyword, _, rfl, heq, heq'⟩ := hsays
    · exact heq
    · exact heq.trans heq'.symm
  obtain rfl : rule = rule' := hrule
  obtain rfl : location = location' := hlocation
  rw [hmessage]

namespace Rule

variable {s s' : Subject} (h : s.Alike alike s')

/-! ### Parameters -/

theorem positionalFrom_alike {ts ts' : List Tag} (h : List.Forall₂ (Tag.Alike alike) ts ts')
    (described : List String) :
    List.Forall₂ (Tag.Alike alike) (positionalFrom described ts)
      (positionalFrom described ts') := by
  induction h generalizing described with
  | nil => exact .nil
  | cons ht _ ih =>
    rw [positionalFrom, positionalFrom, ← ht.paramName]
    split
    · exact .cons ht (ih _)
    · split
      · split
        · exact ih _
        · exact .cons ht (ih _)
      · exact .cons ht (ih _)

include h

theorem positional_alike : List.Forall₂ (fun p q => Tag.Alike alike p.1 q.1 ∧ p.2 = q.2)
    (positional s).zipIdx (positional s').zipIdx :=
  forall₂_zipIdx (positionalFrom_alike h.paramTags []) 0

theorem checkParamNames_alike : checkParamNames s = checkParamNames s' := by
  rw [checkParamNames, checkParamNames, h.signature]
  refine filterMap_eq_of_forall₂ (positional_alike h) ?_
  rintro ⟨t, index⟩ ⟨t', _⟩ ⟨ht, rfl⟩
  have ht : Tag.Alike alike t t' := ht
  simp only [paramNameProblem?, ht.paramName, ht.label, ht.location]

theorem checkRedundantParams_alike : checkRedundantParams s = checkRedundantParams s' := by
  rw [checkRedundantParams, checkRedundantParams, h.signature]
  refine filterMap_eq_of_forall₂ (positional_alike h) ?_
  rintro ⟨t, index⟩ ⟨t', _⟩ ⟨ht, rfl⟩
  have ht : Tag.Alike alike t t' := ht
  simp only [ht.paramName, ht.label, ht.location]

theorem requireParamTypes_alike : requireParamTypes s = requireParamTypes s' :=
  filterMap_eq_of_forall₂ h.paramTags fun t t' ht => by
    rw [ht.type, ht.hasUnknownType, ht.label, ht.location]

theorem requireParamDescription_alike : requireParamDescription s = requireParamDescription s' :=
  filterMap_eq_of_forall₂ h.paramTags fun t t' ht => by
    rw [ht.description, ht.label, ht.location]

theorem requireHyphenBeforeDescription_alike :
    requireHyphenBeforeDescription s = requireHyphenBeforeDescription s' :=
  filterMap_eq_of_forall₂ h.paramTags fun t t' ht => by
    rw [ht.hasHyphen, ht.label, ht.location]

/-! ### Return values -/

theorem requireReturnTypes_alike : requireReturnTypes s = requireReturnTypes s' :=
  filterMap_eq_of_forall₂ h.returnTags fun t t' ht => by
    rw [ht.1.type, ht.2, ht.1.location]

theorem isAbstract_alike : isAbstract s = isAbstract s' := by
  have hnames : ∀ s, isAbstract s =
      (s.tags.map Tag.name).any ["abstract", "virtual", "interface"].contains := by
    intro s
    rw [List.any_map]
    rfl
  rw [hnames, hnames, map_eq_of_forall₂ h.tags fun t t' ht => ht.name]

theorem checkRedundantReturns_alike : checkRedundantReturns s = checkRedundantReturns s' := by
  rw [checkRedundantReturns, checkRedundantReturns, isAbstract_alike h, h.signature]
  refine congrArg _ (map_eq_of_forall₂ h.returnTags fun t t' ht => ?_)
  rw [ht.2, ht.1.location]

theorem checkReturnTypes_alike : checkReturnTypes s = checkReturnTypes s' := by
  rw [checkReturnTypes, checkReturnTypes, h.signature]
  refine congrArg _ (filterMap_eq_of_forall₂ h.returnTags fun t t' ht => ?_)
  rw [ht.1.type, ht.1.location]

/-! ### Access -/

theorem shortAccess_alike : List.Forall₂ (fun p q => p.1 = q.1 ∧ p.2.location = q.2.location)
    (shortAccess s) (shortAccess s') := by
  rw [shortAccess, shortAccess, List.forall₂_map_left_iff, List.forall₂_map_right_iff]
  refine (forall₂_filter h.tags fun t t' ht => by rw [ht.name]).imp fun t t' ht => ?_
  exact ⟨ht.1.name, ht.1.location⟩

theorem explicitAccess_alike : List.Forall₂ (fun p q => p.1 = q.1 ∧ p.2.location = q.2.location)
    (explicitAccess s) (explicitAccess s') := by
  rw [explicitAccess, explicitAccess, List.forall₂_map_left_iff, List.forall₂_map_right_iff]
  exact (h.tagsNamed "access").imp fun t t' ht => ⟨ht.levelOf, ht.location⟩

theorem checkRedundantAccess_alike (choice : Choice) :
    checkRedundantAccess choice s = checkRedundantAccess choice s' := by
  have hlevels : (shortAccess s).map Prod.fst = (shortAccess s').map Prod.fst :=
    map_eq_of_forall₂ (shortAccess_alike h) fun _ _ hp => hp.1
  have hrepeated := filterMap_eq_of_forall₂ (explicitAccess_alike h)
    (f := fun p => if p.1 ∈ (shortAccess s').map Prod.fst then
      some (Finding.mk .checkRedundantAccess
        ("Redundant @access " ++ p.1 ++ ": already declared with @" ++ p.1) p.2.location)
      else none) fun p q hp => by rw [hp.1, hp.2]
  have hshort := fun convention => filterMap_eq_of_forall₂ (shortAccess_alike h)
    (f := fun p => (conventionProblem? convention s'.signature.name p.1).map fun message =>
      (⟨.checkRedundantAccess, message, p.2.location⟩ : Finding)) fun p q hp => by rw [hp.1, hp.2]
  simp only [checkRedundantAccess, hlevels, h.signature]
  rw [hrepeated]
  simp only [hshort]

theorem leadingUnderscoreAccess_alike (choice : Choice) :
    leadingUnderscoreAccess choice s = leadingUnderscoreAccess choice s' := by
  have hdeclared : List.Forall₂ (fun p q => p.1 = q.1 ∧ p.2.location = q.2.location)
      (shortAccess s ++ explicitAccess s) (shortAccess s' ++ explicitAccess s') :=
    List.rel_append (shortAccess_alike h) (explicitAccess_alike h)
  simp only [leadingUnderscoreAccess, h.signature]
  refine congrArg _ ?_
  generalize shortAccess s ++ explicitAccess s = declared at hdeclared ⊢
  generalize shortAccess s' ++ explicitAccess s' = declared' at hdeclared ⊢
  cases hdeclared with
  | nil => rfl
  | @cons p q declared declared' hp hrest =>
    have hall : List.Forall₂ (fun p q => p.1 = q.1 ∧ p.2.location = q.2.location)
        (p :: declared) (q :: declared') := .cons hp hrest
    exact filterMap_eq_of_forall₂ hall fun p q hp => by rw [hp.1, hp.2]

/-! ### Presence -/

theorem enforceExistence_alike (choice : Choice) :
    enforceExistence choice s = enforceExistence choice s' := by
  have hempty : s.comment.all Comment.isEmpty = s'.comment.all Comment.isEmpty := by
    obtain ⟨comment, signature⟩ := s
    obtain ⟨comment', signature'⟩ := s'
    cases h.comment with
    | none => rfl
    | @some c c' hc =>
      simp only [Option.all_some, Comment.isEmpty, hc.description, isEmpty_eq_of_forall₂ hc.tags]
  rw [enforceExistence, enforceExistence, hempty, h.signature]

/-- Neither comment has a gap before its tags, or the gaps are equal and the first tags stand at
one place. -/
theorem gapBeforeTags_alike : (gapBeforeTags? s = none ∧ gapBeforeTags? s' = none) ∨
    ∃ blanks t t', gapBeforeTags? s = some (blanks, t) ∧ gapBeforeTags? s' = some (blanks, t') ∧
      t.location = t'.location := by
  obtain ⟨comment, signature⟩ := s
  obtain ⟨comment', signature'⟩ := s'
  cases h.comment with
  | none => exact .inl ⟨rfl, rfl⟩
  | @some c c' hc =>
    obtain ⟨description, tags, blanks, location⟩ := c
    obtain ⟨description', tags', blanks', location'⟩ := c'
    obtain ⟨hdescription, hblanks, -, htags⟩ := hc
    obtain rfl : description = description' := hdescription
    obtain rfl : blanks = blanks' := hblanks
    have htags : List.Forall₂ (Tag.Alike alike) tags tags' := htags
    cases description with
    | nil => exact .inl ⟨rfl, rfl⟩
    | cons paragraph description =>
      cases htags with
      | nil => exact .inl ⟨rfl, rfl⟩
      | cons ht _ => exact .inr ⟨blanks, _, _, rfl, rfl, ht.location⟩

theorem requireNewlineAfterDescription_alike :
    requireNewlineAfterDescription s = requireNewlineAfterDescription s' := by
  rw [requireNewlineAfterDescription, requireNewlineAfterDescription]
  obtain ⟨hgap, hgap'⟩ | ⟨blanks, t, t', hgap, hgap', hlocation⟩ := gapBeforeTags_alike h
  · rw [hgap, hgap']
  · rw [hgap, hgap']
    cases blanks <;> simp [hlocation]

theorem disallowNewlineAfterDescription_alike :
    disallowNewlineAfterDescription s = disallowNewlineAfterDescription s' := by
  rw [disallowNewlineAfterDescription, disallowNewlineAfterDescription]
  obtain ⟨hgap, hgap'⟩ | ⟨blanks, t, t', hgap, hgap', hlocation⟩ := gapBeforeTags_alike h
  · rw [hgap, hgap']
  · rw [hgap, hgap']
    cases blanks <;> simp [hlocation]

theorem requireDescriptionCompleteSentence_alike :
    requireDescriptionCompleteSentence s = requireDescriptionCompleteSentence s' := by
  have hsentence : s.comment.bind sentence? = s'.comment.bind sentence? := by
    obtain ⟨comment, signature⟩ := s
    obtain ⟨comment', signature'⟩ := s'
    cases h.comment with
    | none => rfl
    | @some c c' hc =>
      have hfind : (c.tagsNamed "param").findSome? saidBy? =
          (c'.tagsNamed "param").findSome? saidBy? := by
        refine findSome_eq_of_forall₂ (forall₂_filter hc.tags fun t t' ht => by rw [ht.name]) ?_
        rintro t t' ⟨ht, -⟩
        rw [saidBy?, saidBy?, ht.description, ht.location]
      have htext : c.descriptionText = c'.descriptionText := by
        rw [Comment.descriptionText, hc.description, Comment.descriptionText]
      rw [Option.bind_some, Option.bind_some, sentence?, htext, hfind, hc.location, sentence?]
  rw [requireDescriptionCompleteSentence, requireDescriptionCompleteSentence, hsentence]

/-! ### Keywords -/

omit h in
/-- The keywords of parameters are all among the tags whose types are checked. -/
theorem typeChecked_of_alias {keyword keyword' : String} (h : Keyword.Alias keyword keyword') :
    typeCheckedTags.contains keyword = typeCheckedTags.contains keyword' := by
  have hparam : ∀ word ∈ ["param", "arg", "argument"], typeCheckedTags.contains word = true := by
    decide
  obtain rfl | ⟨hp, hp'⟩ := h
  · rfl
  · rw [hparam _ (List.contains_iff_mem.mp hp), hparam _ (List.contains_iff_mem.mp hp')]

/-- What is said about a type names the keyword only if the type cannot be read. -/
theorem checkTypes_alike (hr : IsRespelling same alike) (choice : Choice) :
    List.Forall₂ (Finding.Alike alike) (checkTypes choice s) (checkTypes choice s') := by
  refine List.rel_flatMap h.tags fun t t' ht => ?_
  rw [← ht.type]
  cases t.type with
  | none => exact .nil
  | some type =>
    simp only [typeChecked_of_alias (hr.isAlias ht.keyword), ht.location]
    split
    · cases type with
      | unknown raw => exact .cons ⟨rfl, rfl, .inr ⟨rfl, raw, _, _, ht.keyword, rfl, rfl⟩⟩ .nil
      | _ => exact List.forall₂_same.mpr fun f _ => .refl f
    · exact .nil

omit h in
/-- What is said about a tag goes by its keyword and its value. -/
theorem checkAnnotations_alike (h : s.Alike Eq s') (choice : Choice) :
    checkAnnotations choice s = checkAnnotations choice s' :=
  filterMap_eq_of_forall₂ h.tags fun t t' ht => by
    rw [tagProblem?, tagProblem?, ht.keyword, ht.valueText, ht.location]

/-! ### All rules -/

/-- All rules but the one about known tags report alike of comments that are. -/
theorem apply_alike (hr : IsRespelling same alike) (choice : Choice) {r : RuleId}
    (hne : r ≠ .checkAnnotations) :
    List.Forall₂ (Finding.Alike alike) (apply choice s r) (apply choice s' r) := by
  have hequal : apply choice s r = apply choice s' r →
      List.Forall₂ (Finding.Alike alike) (apply choice s r) (apply choice s' r) := by
    intro heq
    rw [heq]
    exact List.forall₂_same.mpr fun f _ => .refl f
  cases r with
  | checkAnnotations => exact absurd rfl hne
  | checkParamNames => exact hequal (checkParamNames_alike h)
  | requireParamTypes => exact hequal (requireParamTypes_alike h)
  | checkRedundantParams => exact hequal (checkRedundantParams_alike h)
  | checkReturnTypes => exact hequal (checkReturnTypes_alike h)
  | checkRedundantReturns => exact hequal (checkRedundantReturns_alike h)
  | requireReturnTypes => exact hequal (requireReturnTypes_alike h)
  | checkTypes => exact checkTypes_alike h hr choice
  | checkRedundantAccess => exact hequal (checkRedundantAccess_alike h choice)
  | leadingUnderscoreAccess => exact hequal (leadingUnderscoreAccess_alike h choice)
  | enforceExistence => exact hequal (enforceExistence_alike h choice)
  | requireHyphenBeforeDescription => exact hequal (requireHyphenBeforeDescription_alike h)
  | requireNewlineAfterDescription => exact hequal (requireNewlineAfterDescription_alike h)
  | disallowNewlineAfterDescription => exact hequal (disallowNewlineAfterDescription_alike h)
  | requireDescriptionCompleteSentence => exact hequal (requireDescriptionCompleteSentence_alike h)
  | requireParamDescription => exact hequal (requireParamDescription_alike h)

/-- The findings of all rules but the one about known tags are alike, one by one. -/
theorem evaluate_alike (hr : IsRespelling same alike) (config : Config) :
    List.Forall₂ (Finding.Alike alike)
      ((evaluate config s).filter fun f => f.rule ≠ .checkAnnotations)
      ((evaluate config s').filter fun f => f.rule ≠ .checkAnnotations) := by
  have hfilter := fun s => filter_evaluate config s fun r => decide (r ≠ .checkAnnotations)
  rw [hfilter, hfilter]
  have hrules : List.Forall₂ (fun r r' => r = r' ∧ r ≠ .checkAnnotations)
      (RuleId.all.filter fun r => decide (r ≠ .checkAnnotations))
      (RuleId.all.filter fun r => decide (r ≠ .checkAnnotations)) :=
    List.forall₂_same.mpr fun r hr => ⟨rfl, of_decide_eq_true (List.mem_filter.mp hr).2⟩
  refine List.rel_flatMap hrules ?_
  rintro r _ ⟨rfl, hne⟩
  unfold run
  split
  · exact apply_alike h hr _ hne
  · exact .nil

omit h in
/-- Comments whose tags have the same keywords give the same findings. -/
theorem evaluate_eq_of_alike (hr : IsRespelling same Eq) (h : s.Alike Eq s') (config : Config) :
    evaluate config s = evaluate config s' := by
  rw [evaluate, evaluate]
  refine congrArg (config.enabled.flatMap ·) (funext fun p => ?_)
  show apply p.2 s p.1 = apply p.2 s' p.1
  by_cases hp : p.1 = .checkAnnotations
  · rw [hp]
    exact checkAnnotations_alike h p.2
  · have halike := (apply_alike h hr p.2 hp).imp fun _ _ hf => hf.eq
    rwa [List.forall₂_eq_eq_eq] at halike

omit h in
/-- How keywords are spelled does not matter. In other letter case they give the same findings. One
word for a parameter in place of another gives the same findings, one by one, but for those of the
rule about known tags, and but for the keyword named with a type that cannot be read. -/
theorem evaluate_respelled (config : Config) (raw raw' : String) (start : Location)
    (signature : Signature) :
    let s : Subject := ⟨some (Comment.parse raw start), signature⟩
    let s' : Subject := ⟨some (Comment.parse raw' start), signature⟩
    (Comment.Respelled Keyword.SameLetters raw raw' → evaluate config s = evaluate config s') ∧
    (Comment.Respelled Keyword.BothParam raw raw' →
      List.Forall₂ (Finding.Alike Keyword.Alias)
        ((evaluate config s).filter fun f => f.rule ≠ .checkAnnotations)
        ((evaluate config s').filter fun f => f.rule ≠ .checkAnnotations)) := by
  intro s s'
  refine ⟨fun h => ?_, fun h => ?_⟩
  · have halike : s.Alike Eq s' :=
      ⟨.some (Comment.parse_alike Keyword.isRespelling_letters h start), rfl⟩
    exact evaluate_eq_of_alike Keyword.isRespelling_letters halike config
  · have halike : s.Alike Keyword.Alias s' :=
      ⟨.some (Comment.parse_alike Keyword.isRespelling_param h start), rfl⟩
    exact evaluate_alike halike Keyword.isRespelling_param config

omit h in
/-- A tag of a parameter in capitals and under another word, with a type that never closes: the
findings are the same, and differ in the keyword that they name. -/
theorem evaluate_respelled_unclosed :
    let config : Config := ⟨fun r => if r = .checkTypes then some .on else none⟩
    let s : String → Subject := fun raw =>
      ⟨some (Comment.parse raw .start), ⟨"f", [], .unknown, .none, .none, false, .start⟩⟩
    evaluate config (s "/** @param \x7ba x */") = evaluate config (s "/** @PARAM \x7ba x */") ∧
      List.Forall₂ (Finding.Alike Keyword.Alias)
        ((evaluate config (s "/** @param \x7ba x */")).filter fun f => f.rule ≠ .checkAnnotations)
        ((evaluate config (s "/** @arg \x7ba x */")).filter fun f => f.rule ≠ .checkAnnotations) ∧
      (evaluate config (s "/** @param \x7ba x */")).map Finding.message =
        ["Invalid type '\x7ba x' in @param"] ∧
      (evaluate config (s "/** @arg \x7ba x */")).map Finding.message =
        ["Invalid type '\x7ba x' in @arg"] := by
  have hsplit : Comment.splitLines "/** @param \x7ba x */".toList =
      ["/** ".toList ++ '@' :: ("param".toList ++ " \x7ba x */".toList)] := by decide +kernel
  obtain ⟨t, ht, hplace⟩ : ∃ t ∈ (Comment.parse "/** @param \x7ba x */" .start).tags,
      t.location = ⟨1, 4⟩ := List.mem_map.mp (by decide +kernel)
  have hrespelled : ∀ (same : List Char → List Char → Prop) (word : List Char) (raw : String),
      Comment.splitLines raw.toList = ["/** ".toList ++ '@' :: (word ++ " \x7ba x */".toList)] →
      same "param".toList word → Comment.Respelled same "/** @param \x7ba x */" raw := by
    intro same word raw hraw hsame
    refine ⟨by rw [hsplit, hraw]; rfl, fun i line line' hl hl' => ?_⟩
    rw [hsplit] at hl
    rw [hraw] at hl'
    cases i with
    | succ i => simp at hl
    | zero =>
      cases hl
      cases hl'
      exact .inr ⟨t, ht, by rw [hplace]; rfl, _, _, _, _, rfl, rfl, by rw [hplace]; rfl,
        by decide +kernel, hsame⟩
  intro config s
  have hletters := (evaluate_respelled config "/** @param \x7ba x */" "/** @PARAM \x7ba x */" .start
    ⟨"f", [], .unknown, .none, .none, false, .start⟩).1
  have hwords := (evaluate_respelled config "/** @param \x7ba x */" "/** @arg \x7ba x */" .start
    ⟨"f", [], .unknown, .none, .none, false, .start⟩).2
  refine ⟨hletters ?_, hwords ?_, by decide +kernel, by decide +kernel⟩
  · refine hrespelled _ "PARAM".toList _ (by decide +kernel) ?_
    unfold Keyword.SameLetters
    decide +kernel
  · refine hrespelled _ "arg".toList _ (by decide +kernel) ?_
    unfold Keyword.BothParam
    decide +kernel

end Rule

end DocCheck
