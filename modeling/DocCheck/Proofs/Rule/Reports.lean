import Mathlib.Data.List.Basic
import DocCheck.Rule.Evaluate

/-!
# What each rule reports

A rule goes over some tags of the comment and reports findings at them, in their
order. One lemma for each such rule tells which tags it goes over and what it may
say of a tag; nothing else has to look into the rule. Two rules on access go over
two kinds of tags, one kind after the other, and the rules on presence report one
finding at most.

Results:

* `Reports.rule`, `Reports.exists_tag`, `Reports.pairwise`: the rule, the tag and the order of what
  is reported.
* `reports_checkParamNames` and its like: what the rules report.
* `checkRedundantAccess_eq`, `leadingUnderscoreAccess_eq`: the two parts of what the rules on
  access report.
* `positionalFrom_sublist`: the tags that go with parameters by position keep their order.
* `exists_reports`: most rules go over some of the tags, in their order.
-/
namespace DocCheck.Rule

/-! ## Reports at tags -/

/-- The findings that a rule reports at tags, in the order of the tags; `fits` tells which messages
go with a tag. A tag may be reported any number of times. -/
inductive Reports (r : RuleId) (fits : Tag → String → Prop) : List Tag → List Finding → Prop where
  | nil : Reports r fits [] []
  | skip {t ts fs} (h : Reports r fits ts fs) : Reports r fits (t :: ts) fs
  | report {t ts fs message} (hm : fits t message) (h : Reports r fits (t :: ts) fs) :
      Reports r fits (t :: ts) (⟨r, message, t.location⟩ :: fs)

section

variable {r : RuleId} {fits : Tag → String → Prop} {ts : List Tag} {fs : List Finding}

theorem Reports.rule (h : Reports r fits ts fs) : ∀ f ∈ fs, f.rule = r := by
  induction h with
  | nil => simp
  | skip _ ih => exact ih
  | report _ _ ih => simpa using ih

theorem Reports.exists_tag (h : Reports r fits ts fs) :
    ∀ f ∈ fs, ∃ t ∈ ts, fits t f.message ∧ f.location = t.location := by
  induction h with
  | nil => simp
  | skip _ ih =>
    intro f hf
    obtain ⟨t, ht, h⟩ := ih f hf
    exact ⟨t, List.mem_cons_of_mem _ ht, h⟩
  | @report t _ _ _ hm _ ih =>
    intro f hf
    rcases List.mem_cons.mp hf with rfl | hf
    · exact ⟨t, List.mem_cons_self, hm, rfl⟩
    · exact ih f hf

/-- What holds between the places of tags, one before the other, holds between those of the
findings. -/
theorem Reports.pairwise {R : Location → Location → Prop} (h : Reports r fits ts fs)
    (hrefl : ∀ l, R l l) (hts : ts.Pairwise fun t u => R t.location u.location) :
    fs.Pairwise fun f g => R f.location g.location := by
  induction h with
  | nil => exact .nil
  | skip _ ih => exact ih (List.pairwise_cons.mp hts).2
  | @report t ts fs _ _ h ih =>
    refine .cons (fun g hg => ?_) (ih hts)
    obtain ⟨u, hu, -, hloc⟩ := h.exists_tag g hg
    rw [hloc]
    rcases List.mem_cons.mp hu with rfl | hu
    · exact hrefl _
    · exact (List.pairwise_cons.mp hts).1 u hu

theorem reports_nil (ts : List Tag) : Reports r fits ts [] := by
  induction ts with
  | nil => exact .nil
  | cons _ _ ih => exact .skip ih

theorem reports_flatMap {α : Type} {xs : List α} {tag : α → Tag} {g : α → List Finding}
    (hts : xs.map tag = ts)
    (h : ∀ x, ∀ f ∈ g x, fits (tag x) f.message ∧ f = ⟨r, f.message, (tag x).location⟩) :
    Reports r fits ts (xs.flatMap g) := by
  subst hts
  induction xs with
  | nil => exact .nil
  | cons x xs ih =>
    -- the findings at one tag go one by one before those at the tags behind it
    have hall : ∀ fs : List Finding, (∀ f ∈ fs, f ∈ g x) →
        Reports r fits (tag x :: xs.map tag) (fs ++ xs.flatMap g) := by
      intro fs hfs
      induction fs with
      | nil => exact .skip ih
      | cons f fs ihfs =>
        obtain ⟨hm, hf⟩ := h x f (hfs f (by simp))
        rw [hf]
        exact .report hm (ihfs fun f' hf' => hfs f' (by simp [hf']))
    exact hall (g x) fun _ hf => hf

theorem reports_filterMap {α : Type} {xs : List α} {tag : α → Tag} {g : α → Option Finding}
    (hts : xs.map tag = ts)
    (h : ∀ x f, g x = some f → fits (tag x) f.message ∧ f = ⟨r, f.message, (tag x).location⟩) :
    Reports r fits ts (xs.filterMap g) := by
  rw [List.filterMap_eq_flatMap_toList]
  exact reports_flatMap hts fun x f hf => h x f (by simpa using hf)

end

/-- What is made of some elements, one of each. -/
theorem filterMap_eq_map_filter {α β : Type} {f : α → Option β} {p : α → Bool} {g : α → β}
    (h : ∀ x, f x = if p x then some (g x) else none) (xs : List α) :
    xs.filterMap f = (xs.filter p).map g := by
  rw [← List.filterMap_eq_map, List.filterMap_filter]
  exact congrArg (List.filterMap · xs) (funext h)

/-! ## One report at most -/

/-- A rule reports nothing, or one finding; `fits` tells which messages it may have. -/
def ReportsOnce (r : RuleId) (fits : String → Prop) (fs : List Finding) : Prop :=
  fs = [] ∨ ∃ f, fs = [f] ∧ f.rule = r ∧ fits f.message

section

variable {r : RuleId} {fits : String → Prop} {fs : List Finding}

theorem ReportsOnce.rule (h : ReportsOnce r fits fs) : ∀ f ∈ fs, f.rule = r := by
  obtain rfl | ⟨f, rfl, hr, -⟩ := h
  · simp
  · simpa using hr

theorem ReportsOnce.message (h : ReportsOnce r fits fs) : ∀ f ∈ fs, fits f.message := by
  obtain rfl | ⟨f, rfl, -, hm⟩ := h
  · simp
  · simpa using hm

end

/-! ## Rules on tags and types -/

theorem reports_checkAnnotations (choice : Choice) (s : Subject) :
    Reports .checkAnnotations (fun t m => tagProblem? choice.tags t = some m) s.tags
      (checkAnnotations choice s) := by
  refine reports_filterMap (List.map_id _) fun t f hf => ?_
  obtain ⟨m, hm, rfl⟩ := Option.map_eq_some_iff.mp hf
  exact ⟨hm, rfl⟩

theorem reports_checkTypes (choice : Choice) (s : Subject) :
    Reports .checkTypes
      (fun t m => ∃ type, t.type = some type ∧ m ∈ typeProblems choice t.keyword type) s.tags
      (checkTypes choice s) := by
  refine reports_flatMap (List.map_id _) fun t f hf => ?_
  split at hf
  · cases hf
  · rename_i type htype
    split at hf
    · obtain ⟨m, hm, rfl⟩ := List.mem_map.mp hf
      exact ⟨⟨type, htype, hm⟩, rfl⟩
    · cases hf

/-! ## Rules on parameters -/

theorem reports_checkParamNames (s : Subject) :
    Reports .checkParamNames
      (fun t m => ∃ index, paramNameProblem? s.signature.params index t = some m) (positional s)
      (checkParamNames s) := by
  refine reports_filterMap (List.zipIdx_map_fst 0 _) fun (t, index) f hf => ?_
  obtain ⟨m, hm, rfl⟩ := Option.map_eq_some_iff.mp hf
  exact ⟨⟨index, hm⟩, rfl⟩

theorem reports_checkRedundantParams (s : Subject) :
    Reports .checkRedundantParams
      (fun t m => t.paramName.isSome ∧ m = "Found redundant param " ++ t.label) (positional s)
      (checkRedundantParams s) := by
  refine reports_filterMap (List.zipIdx_map_fst 0 _) fun (t, index) f hf => ?_
  dsimp only at hf
  split at hf
  · cases hf
  · rename_i name hname
    split at hf
    · cases hf
      exact ⟨⟨by simp [hname], rfl⟩, rfl⟩
    · cases hf

theorem reports_requireParamTypes (s : Subject) :
    Reports .requireParamTypes
      (fun t m => (t.type.isNone ∨ t.hasUnknownType) ∧ m = "Missing type for param " ++ t.label)
      s.paramTags (requireParamTypes s) := by
  refine reports_filterMap (List.map_id _) fun t f hf => ?_
  split at hf
  · rename_i hc
    cases hf
    exact ⟨⟨hc, rfl⟩, rfl⟩
  · cases hf

theorem reports_requireParamDescription (s : Subject) :
    Reports .requireParamDescription
      (fun t m => t.description.all String.isEmpty ∧
        m = "Missing description for param " ++ t.label)
      s.paramTags (requireParamDescription s) := by
  refine reports_filterMap (List.map_id _) fun t f hf => ?_
  split at hf
  · rename_i hc
    cases hf
    exact ⟨⟨hc, rfl⟩, rfl⟩
  · cases hf

theorem reports_requireHyphenBeforeDescription (s : Subject) :
    Reports .requireHyphenBeforeDescription
      (fun t m => hasHyphen t = false ∧
        m = "Missing hyphen before description of param " ++ t.label)
      s.paramTags (requireHyphenBeforeDescription s) := by
  refine reports_filterMap (List.map_id _) fun t f hf => ?_
  split at hf
  · cases hf
  · rename_i hc
    cases hf
    exact ⟨⟨by simpa using hc, rfl⟩, rfl⟩

/-! ## Rules on return values -/

theorem reports_requireReturnTypes (s : Subject) :
    Reports .requireReturnTypes
      (fun t m => t.type.isNone ∧ m = "Missing type in @" ++ t.keyword ++ " statement")
      s.returnTags (requireReturnTypes s) := by
  refine reports_filterMap (List.map_id _) fun t f hf => ?_
  split at hf
  · rename_i hc
    cases hf
    exact ⟨⟨hc, rfl⟩, rfl⟩
  · cases hf

theorem reports_checkRedundantReturns (s : Subject) :
    Reports .checkRedundantReturns
      (fun t m => m = "Redundant @" ++ t.keyword ++ ": '" ++ s.signature.name ++
        "' never returns a value")
      s.returnTags (checkRedundantReturns s) := by
  unfold checkRedundantReturns
  split
  · exact reports_nil _
  · rw [← List.filterMap_eq_map]
    refine reports_filterMap (List.map_id _) fun t f hf => ?_
    cases hf
    exact ⟨rfl, rfl⟩

theorem reports_checkReturnTypes (s : Subject) :
    Reports .checkReturnTypes
      (fun _ m => ∃ kinds : List ValueKind, m =
        "Wrong returns value: declared type does not cover " ++
          ", ".intercalate (kinds.map ValueKind.name))
      s.returnTags (checkReturnTypes s) := by
  unfold checkReturnTypes
  split
  · exact reports_nil _
  · refine reports_filterMap (List.map_id _) fun t f hf => ?_
    split at hf
    · rename_i k ks _
      cases hf
      exact ⟨⟨k :: ks, rfl⟩, rfl⟩
    · cases hf

/-! ## Rules on access -/

/-- The tag is one of the short tags for access. -/
def isShortAccess (t : Tag) : Bool := ["private", "protected", "public"].contains t.name

/-- The tag declares access with a level. -/
def isExplicitAccess (t : Tag) : Bool := t.name = "access"

section

variable {r : RuleId} {fits : Tag → String → Prop}

/-- A rule goes over the short tags, with the level that each declares. -/
theorem reports_shortAccess (s : Subject) {g : String × Tag → Option Finding}
    (h : ∀ t f, g (t.name, t) = some f → fits t f.message ∧ f = ⟨r, f.message, t.location⟩) :
    Reports r fits (s.tags.filter isShortAccess) ((shortAccess s).filterMap g) := by
  rw [shortAccess, List.filterMap_map]
  exact reports_filterMap (List.map_id _) h

/-- A rule goes over the `@access` tags, with the level that each declares. -/
theorem reports_explicitAccess (s : Subject) {g : String × Tag → Option Finding}
    (h : ∀ t f, g (levelOf t, t) = some f → fits t f.message ∧ f = ⟨r, f.message, t.location⟩) :
    Reports r fits (s.tags.filter isExplicitAccess) ((explicitAccess s).filterMap g) := by
  rw [explicitAccess, List.filterMap_map]
  exact reports_filterMap (List.map_id _) h

end

/-- What may be said of an `@access` tag that repeats one of the levels of the short tags. -/
def Repeats (s : Subject) (t : Tag) (message : String) : Prop :=
  levelOf t ∈ (shortAccess s).map Prod.fst ∧
    message = "Redundant @access " ++ levelOf t ++ ": already declared with @" ++ levelOf t

/-- What may be said of a short tag on a name that some convention marks as private. -/
def Contradicts (s : Subject) (t : Tag) (message : String) : Prop :=
  ∃ convention, conventionProblem? convention s.signature.name t.name = some message

/-- The `@access` tags are reported before the short tags. -/
theorem checkRedundantAccess_eq (choice : Choice) (s : Subject) : ∃ repeated against,
    checkRedundantAccess choice s = repeated ++ against ∧
      Reports .checkRedundantAccess (Repeats s) (s.tags.filter isExplicitAccess) repeated ∧
      Reports .checkRedundantAccess (Contradicts s) (s.tags.filter isShortAccess) against := by
  have hrepeated : Reports .checkRedundantAccess (Repeats s) (s.tags.filter isExplicitAccess)
      ((explicitAccess s).filterMap fun p =>
        if p.1 ∈ (shortAccess s).map Prod.fst then
          some ⟨.checkRedundantAccess,
            "Redundant @access " ++ p.1 ++ ": already declared with @" ++ p.1, p.2.location⟩
        else none) := by
    refine reports_explicitAccess s fun t f hf => ?_
    dsimp only at hf
    split at hf
    · rename_i hc
      cases hf
      exact ⟨⟨hc, rfl⟩, rfl⟩
    · cases hf
  unfold checkRedundantAccess
  split
  · exact ⟨_, [], (List.append_nil _).symm, hrepeated, reports_nil _⟩
  · rename_i convention _
    split
    · exact ⟨_, [], (List.append_nil _).symm, hrepeated, reports_nil _⟩
    · refine ⟨_, _, rfl, hrepeated, reports_shortAccess s fun t f hf => ?_⟩
      obtain ⟨m, hm, rfl⟩ := Option.map_eq_some_iff.mp hf
      exact ⟨⟨convention, hm⟩, rfl⟩

/-- The short tags are reported before the `@access` tags, unless the one finding is that there
are neither. -/
theorem leadingUnderscoreAccess_eq (choice : Choice) (s : Subject) :
    (∃ short explicit, leadingUnderscoreAccess choice s = short ++ explicit ∧
      Reports .leadingUnderscoreAccess
        (fun t m => levelProblem? choice s.signature.name t.name = some m)
        (s.tags.filter isShortAccess) short ∧
      Reports .leadingUnderscoreAccess
        (fun t m => levelProblem? choice s.signature.name (levelOf t) = some m)
        (s.tags.filter isExplicitAccess) explicit) ∨
    leadingUnderscoreAccess choice s = [⟨.leadingUnderscoreAccess,
      "Missing access tag for '" ++ s.signature.name ++ "'", s.signature.location⟩] := by
  unfold leadingUnderscoreAccess
  split
  · exact .inl ⟨[], [], rfl, reports_nil _, reports_nil _⟩
  · split
    · exact .inr rfl
    · refine .inl ⟨_, _, List.filterMap_append, reports_shortAccess s fun t f hf => ?_,
        reports_explicitAccess s fun t f hf => ?_⟩ <;>
      · obtain ⟨m, hm, rfl⟩ := Option.map_eq_some_iff.mp hf
        exact ⟨hm, rfl⟩

/-! ## Rules on presence -/

theorem reportsOnce_enforceExistence (choice : Choice) (s : Subject) :
    ReportsOnce .enforceExistence
      (fun m => ∃ name ∈ [s.signature.name, "anonymous function"],
        m = "Missing doc-comment for '" ++ name ++ "'")
      (enforceExistence choice s) := by
  unfold enforceExistence
  split
  · exact .inl rfl
  · split
    · refine .inr ⟨_, rfl, rfl, _, ?_, rfl⟩
      split <;> simp
    · exact .inl rfl

theorem reportsOnce_requireNewlineAfterDescription (s : Subject) :
    ReportsOnce .requireNewlineAfterDescription (· = "Missing blank line after description")
      (requireNewlineAfterDescription s) := by
  unfold requireNewlineAfterDescription
  split
  · exact .inr ⟨_, rfl, rfl, rfl⟩
  · exact .inl rfl

theorem reportsOnce_disallowNewlineAfterDescription (s : Subject) :
    ReportsOnce .disallowNewlineAfterDescription (· = "Unexpected blank line after description")
      (disallowNewlineAfterDescription s) := by
  unfold disallowNewlineAfterDescription
  split
  · exact .inr ⟨_, rfl, rfl, rfl⟩
  · exact .inl rfl

theorem reportsOnce_requireDescriptionCompleteSentence (s : Subject) :
    ReportsOnce .requireDescriptionCompleteSentence
      (· = "Description must start with an upper case letter and end with a period")
      (requireDescriptionCompleteSentence s) := by
  unfold requireDescriptionCompleteSentence
  split
  · split
    · exact .inl rfl
    · exact .inr ⟨_, rfl, rfl, rfl⟩
  · exact .inl rfl

/-! ## Tags by position -/

theorem positionalFrom_sublist (described : List String) (ts : List Tag) :
    (positionalFrom described ts).Sublist ts := by
  induction ts generalizing described with
  | nil => exact .slnil
  | cons t ts ih =>
    rw [positionalFrom]
    split
    · exact (ih _).cons_cons t
    · split
      · split
        · exact (ih _).cons t
        · exact (ih _).cons_cons t
      · exact (ih _).cons_cons t

/-! ## Rules that go over tags once -/

/-- The rule goes over some of the tags, in their order. -/
def goesAlong : RuleId → Bool
  | .checkRedundantAccess | .leadingUnderscoreAccess | .enforceExistence
  | .requireNewlineAfterDescription | .disallowNewlineAfterDescription
  | .requireDescriptionCompleteSentence => false
  | _ => true

theorem exists_reports (choice : Choice) (s : Subject) {r : RuleId} (hr : goesAlong r = true) :
    ∃ fits ts, Reports r fits ts (apply choice s r) ∧ ts.Sublist s.tags := by
  have hparam : s.paramTags.Sublist s.tags := List.filter_sublist
  have hreturn : s.returnTags.Sublist s.tags := List.filter_sublist
  have hpositional : (positional s).Sublist s.tags := (positionalFrom_sublist _ _).trans hparam
  cases r with
  | checkAnnotations => exact ⟨_, _, reports_checkAnnotations choice s, .refl _⟩
  | checkParamNames => exact ⟨_, _, reports_checkParamNames s, hpositional⟩
  | requireParamTypes => exact ⟨_, _, reports_requireParamTypes s, hparam⟩
  | checkRedundantParams => exact ⟨_, _, reports_checkRedundantParams s, hpositional⟩
  | checkReturnTypes => exact ⟨_, _, reports_checkReturnTypes s, hreturn⟩
  | checkRedundantReturns => exact ⟨_, _, reports_checkRedundantReturns s, hreturn⟩
  | requireReturnTypes => exact ⟨_, _, reports_requireReturnTypes s, hreturn⟩
  | checkTypes => exact ⟨_, _, reports_checkTypes choice s, .refl _⟩
  | requireHyphenBeforeDescription =>
    exact ⟨_, _, reports_requireHyphenBeforeDescription s, hparam⟩
  | requireParamDescription => exact ⟨_, _, reports_requireParamDescription s, hparam⟩
  | _ => cases hr

end DocCheck.Rule
