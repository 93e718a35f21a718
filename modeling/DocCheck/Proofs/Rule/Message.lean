import Mathlib.Data.List.TakeDrop
import DocCheck.Proofs.Comment.Invariant
import DocCheck.Proofs.Rule.Reports
import DocCheck.Proofs.Text.OneLine
import DocCheck.Proofs.TypeExpr.Names

/-!
# What messages quote

A message is made of fixed words and of texts taken from the comment and from the
source. Of the comment, keywords, access levels, names of parameters that are
not in brackets and the names in a type are words, and words stand on one line.
What is in brackets, a type that cannot be read, and names taken from the
source may go over several lines: these a message quotes as they are.

Results:

* `Tag.IsRead.isOneLine_keyword`, `Tag.IsRead.isOneLine_paramName`, `Tag.IsRead.isOneLine_names`:
  the words in a tag.
* `quotes`: the texts that a rule may quote as they are.
* `isOneLine_of_mem_apply`: without line feeds in them a message is on one line.
-/
namespace DocCheck

open Text (isOneLine_append isOneLine_ofList)

/-! ## Names in types -/

namespace TypeExpr

theorem isOneLine_of_isIdent {name : String} (h : isIdent name.toList = true) :
    IsOneLine name := by
  rw [IsOneLine]
  intro hm
  have hc : continuesIdent '\n' = true := by
    revert h hm
    cases name.toList with
    | nil => simp
    | cons c cs =>
      intro h hm
      simp only [isIdent, Bool.and_eq_true, List.all_eq_true] at h
      rcases List.mem_cons.mp hm with rfl | hm
      · exact continuesIdent_of_startsIdent h.1
      · exact h.2 _ hm
  rw [continuesIdent_of_isBlank Text.isBlank_newline] at hc
  cases hc

theorem isOneLine_of_isDotted {name : String} (h : isDotted name = true) : IsOneLine name := by
  have hparts : ['.'].intercalate (name.toList.splitOn '.') = name.toList :=
    List.intercalate_splitOn '.'
  rw [IsOneLine, ← hparts]
  intro hm
  obtain hm | ⟨part, hpart, hm⟩ := Text.mem_of_mem_intercalate hm
  · cases List.mem_singleton.mp hm
  · have hident := List.all_eq_true.mp h part hpart
    rw [← String.toList_ofList (l := part)] at hident hm
    exact isOneLine_of_isIdent hident hm

theorem isOneLine_primitives :
    (primitives.all fun name => decide (IsOneLine name)) = true := by
  decide

/-- The names in a type that was read are on one line. -/
theorem WellFormed.isOneLine_names {t : TypeExpr} (h : WellFormed t) :
    ∀ name ∈ t.names, IsOneLine name := by
  induction h with
  | native h =>
    intro name hname
    cases List.mem_singleton.mp hname
    obtain rfl | rfl | h := h
    · decide
    · decide
    · exact of_decide_eq_true (List.all_eq_true.mp isOneLine_primitives _ h)
  | reference h _ =>
    intro name hname
    cases List.mem_singleton.mp hname
    exact isOneLine_of_isDotted h
  | union _ _ ih =>
    intro name hname
    obtain ⟨t, ht, hname⟩ := mem_namesOfList.mp hname
    exact ih t ht name hname
  | nullable _ ih | nonNullable _ ih | optional _ ih | arrayOf _ ih => exact ih
  | generic hb _ _ _ ih =>
    intro name hname
    rcases List.mem_cons.mp hname with rfl | hname
    · exact isOneLine_of_isDotted hb
    · obtain ⟨t, ht, hname⟩ := mem_namesOfList.mp hname
      exact ih t ht name hname
  | @function params returns _ _ _ ih ihr =>
    intro name hname
    rcases List.mem_append.mp hname with hname | hname
    · obtain ⟨p, hp, hname⟩ := mem_namesOfParams.mp hname
      exact ih p hp name hname
    · cases returns with
      | none => cases hname
      | some t => exact ihr t rfl name hname
  | record _ _ ih =>
    intro name hname
    obtain ⟨f, hf, hname⟩ := mem_namesOfFields.mp hname
    exact ih f hf name hname

end TypeExpr

/-! ## Words in tags -/

namespace Tag

theorem isOneLine_lower_keyword {written : List Char}
    (h : ∀ c ∈ written, Keyword.isKeywordChar c = true) :
    IsOneLine (Text.lower (String.ofList written)) := by
  refine Text.isOneLine_lower (isOneLine_ofList.mpr fun hm => ?_)
  have hc := h _ hm
  rw [Keyword.isKeywordChar, Text.isWord_of_isBlank Text.isBlank_newline] at hc
  cases hc

theorem IsRead.isOneLine_keyword {t : Tag} (h : t.IsRead) : IsOneLine t.keyword := by
  obtain ⟨written, rest, hsplit, hwritten⟩ := h.exists_split
  rw [(keyword_of_split hsplit).1]
  exact isOneLine_lower_keyword hwritten

/-- The name of a parameter that is not in brackets is a word. -/
theorem IsRead.isOneLine_paramName {t : Tag} (h : t.IsRead) (ho : t.optional = false)
    {name : String} (hn : t.paramName = some name) : IsOneLine name := by
  obtain ⟨-, -, hname, hoptional, -⟩ := h.eq_parts
  rw [hn] at hname
  rw [ho] at hoptional
  revert hname hoptional
  -- in the branches with brackets the parameter is optional, or there is no name
  unfold paramPart
  split
  · split
    · simp
    · split
      · simp
      · simp
    · dsimp only
      split
      · simp
      · intro hname _
        cases hname
        rw [isOneLine_ofList, Text.spanWord, List.span_eq_takeWhile_dropWhile]
        intro hm
        have hb := List.all_eq_true.mp List.all_takeWhile _ hm
        rw [Text.isBlank_newline] at hb
        cases hb
  · simp

/-- The names in the type of a tag are words. -/
theorem IsRead.isOneLine_names {t : Tag} (h : t.IsRead) {type : TypeExpr}
    (ht : t.type = some type) : ∀ name ∈ type.names, IsOneLine name := by
  obtain ⟨-, htype, -⟩ := h.eq_parts
  have key : type.isUnknown = true ∨ ∃ text, type = TypeExpr.parse text := by
    rw [ht, typePart] at htype
    split at htype
    · split at htype
      · cases htype
        exact .inl rfl
      · dsimp only at htype
        split at htype
        · cases htype
          exact .inl rfl
        · cases htype
          exact .inr ⟨_, rfl⟩
    · cases htype
  cases hu : type.isUnknown with
  | true =>
    cases type with
    | unknown raw => exact fun name hname => (List.not_mem_nil hname).elim
    | _ => cases hu
  | false =>
    obtain hu' | ⟨text, rfl⟩ := key
    · rw [hu] at hu'
      cases hu'
    · exact (TypeExpr.wellFormed_parse hu).isOneLine_names

end Tag

/-! ## Messages -/

namespace Rule

/-- The names in brackets that tags give to parameters. -/
def bracketed (s : Subject) : List String :=
  s.paramTags.filterMap fun t => if t.optional then t.paramName else none

/-- The types of tags that cannot be read. -/
def unreadable (s : Subject) : List String :=
  s.tags.filterMap fun t =>
    match t.type with
    | some (.unknown raw) => some raw
    | _ => none

/-- The texts from the comment or the source that a rule may quote as they are. -/
def quotes (s : Subject) : RuleId → List String
  | .checkTypes => unreadable s
  | .checkParamNames => s.signature.params.map Param.name ++ bracketed s
  | .checkRedundantParams | .requireParamTypes | .requireParamDescription |
    .requireHyphenBeforeDescription => bracketed s
  | .checkRedundantReturns | .checkRedundantAccess | .leadingUnderscoreAccess |
    .enforceExistence => [s.signature.name]
  | .checkAnnotations | .checkReturnTypes | .requireReturnTypes |
    .requireNewlineAfterDescription | .disallowNewlineAfterDescription |
    .requireDescriptionCompleteSentence => []

section

variable {s : Subject} {t : Tag} {m : String}

theorem isOneLine_label (ht : t ∈ s.paramTags) (h : t.IsRead)
    (hq : ∀ q ∈ bracketed s, IsOneLine q) : IsOneLine t.label := by
  unfold Tag.label
  split
  · rename_i name hname
    have hn : IsOneLine name := by
      cases ho : t.optional with
      | false => exact h.isOneLine_paramName ho hname
      | true => exact hq name (List.mem_filterMap.mpr ⟨t, ht, by simp [ho, hname]⟩)
    split
    · decide
    · simpa [IsOneLine] using hn
  · decide

theorem isOneLine_tagProblem {table : TagTable} (h : t.IsRead)
    (hm : tagProblem? table t = some m) : IsOneLine m := by
  have hk := h.isOneLine_keyword
  have hcases : m = "Unknown tag @" ++ t.keyword ∨
      m = "Tag @" ++ t.keyword ++ " does not accept a value" ∨
      m = "Tag @" ++ t.keyword ++ " requires a value" := by
    unfold tagProblem? at hm
    split at hm
    · cases hm
      exact .inl rfl
    · split at hm
      · cases hm
      · cases hm
        exact .inr (.inl rfl)
    · split at hm
      · cases hm
        exact .inr (.inr rfl)
      · cases hm
    · cases hm
  obtain rfl | rfl | rfl := hcases <;> simpa [IsOneLine] using hk

theorem isOneLine_paramNameProblem {params : List Param} {index : Nat}
    (hparams : ∀ p ∈ params, IsOneLine p.name) (hlabel : IsOneLine t.label)
    (hm : paramNameProblem? params index t = some m) : IsOneLine m := by
  have hnat : ∀ n : Nat, IsOneLine (toString n) := fun n => (Text.plain_nat n).1
  unfold paramNameProblem? at hm
  split at hm
  · cases hm
    decide
  · cases hm
    simp only [isOneLine_append]
    exact ⟨⟨⟨⟨⟨⟨by decide, hlabel⟩, by decide⟩, hnat _⟩, by decide⟩,
      hnat _⟩, by decide⟩
  · rename_i p _ hp
    split at hm
    · cases hm
    · cases hm
      simp only [isOneLine_append]
      exact ⟨⟨⟨by decide, hparams p (List.mem_of_getElem? hp)⟩, by decide⟩, hlabel⟩

theorem isOneLine_strictSpelling :
    (strictSpelling.all fun (_, spelling) => decide (IsOneLine spelling)) = true := by
  decide

theorem isOneLine_capitalized {name : String} (h : IsOneLine name) :
    IsOneLine (capitalized name) := by
  rw [IsOneLine] at h
  unfold capitalized
  split
  · rename_i c r he
    rw [he, List.mem_cons, not_or] at h
    rw [isOneLine_ofList, List.mem_cons, not_or]
    exact ⟨(Text.toUpper_ne_newline (Ne.symm h.1)).symm, h.2⟩
  · decide

theorem isOneLine_expectedSpelling {choice : Choice} {name expected : String}
    (hn : IsOneLine name) (he : expectedSpelling? choice name = some expected) :
    IsOneLine expected := by
  unfold expectedSpelling? at he
  split at he
  · split at he
    · rename_i spelling hspelling
      split at he
      · cases he
      · cases he
        have hall := List.all_eq_true.mp isOneLine_strictSpelling _ (Assoc.mem_of_lookup hspelling)
        exact of_decide_eq_true hall
    · cases he
  · split at he
    · cases he
      exact isOneLine_capitalized hn
    · cases he
  · cases he

theorem isOneLine_typeProblem {choice : Choice} {type : TypeExpr} (h : t.IsRead) (ht : t ∈ s.tags)
    (hq : ∀ q ∈ unreadable s, IsOneLine q) (htype : t.type = some type)
    (hm : m ∈ typeProblems choice t.keyword type) : IsOneLine m := by
  have hk := h.isOneLine_keyword
  unfold typeProblems at hm
  split at hm
  · rename_i raw
    cases List.mem_singleton.mp hm
    have hraw : IsOneLine raw := hq raw (List.mem_filterMap.mpr ⟨t, ht, by simp [htype]⟩)
    simp only [isOneLine_append]
    exact ⟨⟨⟨by decide, hraw⟩, by decide⟩, hk⟩
  · obtain ⟨name, hname, hm⟩ := List.mem_filterMap.mp hm
    obtain ⟨expected, he, rfl⟩ := Option.map_eq_some_iff.mp hm
    have hn := h.isOneLine_names htype name hname
    simp only [isOneLine_append]
    exact ⟨⟨⟨⟨by decide, hn⟩, by decide⟩, isOneLine_expectedSpelling hn he⟩,
      by decide⟩

theorem isOneLine_levelOf (t : Tag) : IsOneLine (levelOf t) := by
  unfold levelOf
  split
  · rename_i w _ he
    have hw : w ∈ Text.words t.valueText.toList := by simp [he]
    exact Text.isOneLine_lower (Text.isOneLine_word hw)
  · decide

theorem isOneLine_conventionProblem {convention : Underscore} {name level : String}
    (hn : IsOneLine name) (hm : conventionProblem? convention name level = some m) :
    IsOneLine m := by
  have hc : IsOneLine convention.name := by cases convention <;> decide
  unfold conventionProblem? at hm
  split at hm
  · cases hm
    simp only [isOneLine_append]
    exact ⟨⟨⟨⟨by decide, hc⟩, by decide⟩, hn⟩, by decide⟩
  · split at hm
    · cases hm
      simp only [isOneLine_append]
      exact ⟨⟨⟨⟨by decide, hc⟩, by decide⟩, hn⟩, by decide⟩
    · cases hm

theorem isOneLine_levelProblem {choice : Choice} {name level : String} (hn : IsOneLine name)
    (hl : IsOneLine level) (hm : levelProblem? choice name level = some m) : IsOneLine m := by
  have hshown : IsOneLine (if level = "" then "empty" else level) := by
    split
    · decide
    · exact hl
  have hcases : (∃ mode : Mode, m = "Access of '" ++ name ++ "' must be " ++ mode.name ++
      ", not " ++ (if level = "" then "empty" else level)) ∨
        m = "Access of '" ++ name ++ "' must not be public" := by
    cases choice with
    | mode mode =>
      simp only [levelProblem?, Option.ite_none_left_eq_some, Option.some.injEq] at hm
      exact .inl ⟨mode, hm.2.symm⟩
    | on | annotations =>
      simp only [levelProblem?, Option.ite_none_right_eq_some, Option.some.injEq] at hm
      exact .inr hm.2.symm
  obtain ⟨mode, rfl⟩ | rfl := hcases
  · have hmode : IsOneLine mode.name := by cases mode <;> decide
    simp only [isOneLine_append]
    exact ⟨⟨⟨⟨⟨by decide, hn⟩, by decide⟩, hmode⟩, by decide⟩, hshown⟩
  · simp only [isOneLine_append]
    exact ⟨⟨by decide, hn⟩, by decide⟩

theorem isOneLine_of_isShortAccess (h : isShortAccess t = true) : IsOneLine t.name := by
  have hmem : t.name ∈ ["private", "protected", "public"] := by simpa [isShortAccess] using h
  have hall : (["private", "protected", "public"].all fun l => decide (IsOneLine l)) = true := by
    decide
  exact of_decide_eq_true (List.all_eq_true.mp hall _ hmem)

end

/-- A message is on one line if the texts that its rule quotes are. -/
theorem isOneLine_of_mem_apply {choice : Choice} {s : Subject} {r : RuleId} {f : Finding}
    (hread : ∀ t ∈ s.tags, t.IsRead) (hq : ∀ q ∈ quotes s r, IsOneLine q)
    (hf : f ∈ apply choice s r) : IsOneLine f.message := by
  have hparam : ∀ t ∈ s.paramTags, t.IsRead := fun t ht => hread t (List.mem_of_mem_filter ht)
  have hreturn : ∀ t ∈ s.returnTags, t.IsRead := fun t ht => hread t (List.mem_of_mem_filter ht)
  have hpositional : ∀ t ∈ positional s, t ∈ s.paramTags := fun t ht =>
    (positionalFrom_sublist _ _).mem ht
  cases r with
  | checkAnnotations =>
    obtain ⟨t, ht, hm, -⟩ := (reports_checkAnnotations choice s).exists_tag f hf
    exact isOneLine_tagProblem (hread t ht) hm
  | checkParamNames =>
    obtain ⟨t, ht, ⟨index, hm⟩, -⟩ := (reports_checkParamNames s).exists_tag f hf
    have ht := hpositional t ht
    refine isOneLine_paramNameProblem (fun p hp => hq _ ?_)
      (isOneLine_label ht (hparam t ht) fun q hb => hq q ?_) hm
    · exact List.mem_append_left _ (List.mem_map_of_mem hp)
    · exact List.mem_append_right _ hb
  | requireParamTypes =>
    obtain ⟨t, ht, ⟨-, hm⟩, -⟩ := (reports_requireParamTypes s).exists_tag f hf
    rw [hm, isOneLine_append]
    exact ⟨by decide, isOneLine_label ht (hparam t ht) hq⟩
  | checkRedundantParams =>
    obtain ⟨t, ht, ⟨-, hm⟩, -⟩ := (reports_checkRedundantParams s).exists_tag f hf
    have ht := hpositional t ht
    rw [hm, isOneLine_append]
    exact ⟨by decide, isOneLine_label ht (hparam t ht) hq⟩
  | checkReturnTypes =>
    obtain ⟨t, ht, ⟨kinds, hm⟩, -⟩ := (reports_checkReturnTypes s).exists_tag f hf
    rw [hm, isOneLine_append]
    refine ⟨by decide, Text.isOneLine_intercalate (by decide) fun name hname => ?_⟩
    obtain ⟨k, -, rfl⟩ := List.mem_map.mp hname
    cases k <;> decide
  | checkRedundantReturns =>
    obtain ⟨t, ht, hm, -⟩ := (reports_checkRedundantReturns s).exists_tag f hf
    simp only [hm, isOneLine_append]
    exact ⟨⟨⟨⟨by decide, (hreturn t ht).isOneLine_keyword⟩, by decide⟩,
      hq _ (by simp [quotes])⟩, by decide⟩
  | requireReturnTypes =>
    obtain ⟨t, ht, ⟨-, hm⟩, -⟩ := (reports_requireReturnTypes s).exists_tag f hf
    simp only [hm, isOneLine_append]
    exact ⟨⟨by decide, (hreturn t ht).isOneLine_keyword⟩, by decide⟩
  | checkTypes =>
    obtain ⟨t, ht, ⟨type, htype, hm⟩, -⟩ := (reports_checkTypes choice s).exists_tag f hf
    exact isOneLine_typeProblem (hread t ht) ht hq htype hm
  | checkRedundantAccess =>
    have hname : IsOneLine s.signature.name := hq _ (by simp [quotes])
    obtain ⟨repeated, against, he, hrepeated, hagainst⟩ := checkRedundantAccess_eq choice s
    rw [apply, he, List.mem_append] at hf
    rcases hf with hf | hf
    · obtain ⟨t, -, ⟨-, hm⟩, -⟩ := hrepeated.exists_tag f hf
      simp only [hm, isOneLine_append]
      exact ⟨⟨⟨by decide, isOneLine_levelOf t⟩, by decide⟩, isOneLine_levelOf t⟩
    · obtain ⟨t, -, ⟨convention, hm⟩, -⟩ := hagainst.exists_tag f hf
      exact isOneLine_conventionProblem hname hm
  | leadingUnderscoreAccess =>
    have hname : IsOneLine s.signature.name := hq _ (by simp [quotes])
    obtain ⟨short, explicit, he, hshort, hexplicit⟩ | he := leadingUnderscoreAccess_eq choice s
    · rw [apply, he, List.mem_append] at hf
      rcases hf with hf | hf
      · obtain ⟨t, ht, hm, -⟩ := hshort.exists_tag f hf
        exact isOneLine_levelProblem hname
          (isOneLine_of_isShortAccess (List.mem_filter.mp ht).2) hm
      · obtain ⟨t, -, hm, -⟩ := hexplicit.exists_tag f hf
        exact isOneLine_levelProblem hname (isOneLine_levelOf t) hm
    · rw [apply, he] at hf
      simp only [List.mem_singleton.mp hf, isOneLine_append]
      exact ⟨⟨by decide, hname⟩, by decide⟩
  | enforceExistence =>
    obtain ⟨name, hname, hm⟩ := (reportsOnce_enforceExistence choice s).message f hf
    have hline : IsOneLine name := by
      rcases List.mem_cons.mp hname with rfl | hname
      · exact hq _ (by simp [quotes])
      · rw [List.mem_singleton.mp hname]
        decide
    simp only [hm, isOneLine_append]
    exact ⟨⟨by decide, hline⟩, by decide⟩
  | requireHyphenBeforeDescription =>
    obtain ⟨t, ht, ⟨-, hm⟩, -⟩ := (reports_requireHyphenBeforeDescription s).exists_tag f hf
    rw [hm, isOneLine_append]
    exact ⟨by decide, isOneLine_label ht (hparam t ht) hq⟩
  | requireNewlineAfterDescription =>
    rw [(reportsOnce_requireNewlineAfterDescription s).message f hf]
    decide
  | disallowNewlineAfterDescription =>
    rw [(reportsOnce_disallowNewlineAfterDescription s).message f hf]
    decide
  | requireDescriptionCompleteSentence =>
    rw [(reportsOnce_requireDescriptionCompleteSentence s).message f hf]
    decide
  | requireParamDescription =>
    obtain ⟨t, ht, ⟨-, hm⟩, -⟩ := (reports_requireParamDescription s).exists_tag f hf
    rw [hm, isOneLine_append]
    exact ⟨by decide, isOneLine_label ht (hparam t ht) hq⟩

end Rule

end DocCheck
