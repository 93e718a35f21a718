import DocCheck.Proofs.Comment.TagParts
import DocCheck.Rule.Presence

/-!
# Complete sentences

A complete sentence starts with a capital letter and ends with a period directly
behind a character that is not white space, or directly behind the capital letter.
The rule finds out by a search that takes the text apart in every way, so that
periods, line feeds and empty lines in the middle make no difference.

Results:

* `goesOnToClose_iff`, `isSentence_iff`: what the search finds.
* `sentence_eq_some`, `sentence_eq_none`: which text is checked, and when there is none.
* `sentence_checked`: what the rule reports.
-/
namespace DocCheck

namespace Rule

/-! ## The search -/

/-- A trimmed text is a capital letter from A to Z, then something that is empty or ends with a
character that is not white space, and then a period. -/
def IsSentence (cs : List Char) : Prop :=
  ∃ c m, cs = c :: m ++ ['.'] ∧ ('A' ≤ c ∧ c ≤ 'Z') ∧ ∀ d ∈ m.getLast?, Text.isBlank d = false

theorem isClose_iff {cs : List Char} : isClose cs = true ↔ cs = ['.'] := by
  unfold isClose
  split
  · simp
  · rename_i h
    constructor
    · intro hf
      cases hf
    · intro he
      exact absurd he (h '.')

theorem goesOnToClose_iff {cs : List Char} :
    goesOnToClose cs = true ↔ ∃ m d, cs = m ++ [d, '.'] ∧ Text.isBlank d = false := by
  induction cs with
  | nil => simp [goesOnToClose]
  | cons c cs ih =>
    rw [goesOnToClose, Bool.or_eq_true, Bool.and_eq_true, ih, isClose_iff, Bool.not_eq_true']
    constructor
    · rintro (⟨m, d, rfl, hd⟩ | ⟨hc, rfl⟩)
      · exact ⟨c :: m, d, rfl, hd⟩
      · exact ⟨[], c, rfl, hc⟩
    · rintro ⟨m, d, he, hd⟩
      cases m with
      | nil =>
        obtain ⟨rfl, rfl⟩ := List.cons.inj he
        exact .inr ⟨hd, rfl⟩
      | cons c' m =>
        obtain ⟨rfl, rfl⟩ := List.cons.inj he
        exact .inl ⟨m, d, rfl, hd⟩

/-- The search takes exactly the sentences for sentences. -/
theorem isSentence_iff {cs : List Char} : isSentence cs = true ↔ IsSentence cs := by
  cases cs with
  | nil => simp [isSentence, IsSentence]
  | cons c cs =>
    have hupper : c.isUpper = true ↔ 'A' ≤ c ∧ c ≤ 'Z' := decide_eq_true_iff
    rw [isSentence, Bool.and_eq_true, Bool.or_eq_true, goesOnToClose_iff, isClose_iff, hupper]
    constructor
    · rintro ⟨hc, ⟨m, d, rfl, hd⟩ | rfl⟩
      · exact ⟨c, m ++ [d], by simp, hc, by simpa using hd⟩
      · exact ⟨c, [], rfl, hc, by simp⟩
    · rintro ⟨c', m, he, hc, hlast⟩
      obtain ⟨rfl, rfl⟩ := List.cons.inj he
      refine ⟨hc, ?_⟩
      rcases m.eq_nil_or_concat with rfl | ⟨m, d, rfl⟩
      · exact .inr rfl
      · exact .inl ⟨m, d, by simp, hlast d (by simp)⟩

/-! ## The text that is checked -/

/-- The tag describes a parameter, whichever of its keywords it has. -/
def DescribesParam (t : Tag) (d : String) : Prop :=
  t.name = "param" ∧ t.description = some d ∧ d ≠ ""

/-- The text of a comment that is checked, and its place: the description if there is one,
otherwise what the first tag that describes a parameter says. -/
inductive IsChecked (c : Comment) : String → Location → Prop where
  | description (h : c.descriptionText ≠ "") : IsChecked c c.descriptionText c.location
  | param {before after : List Tag} {t : Tag} {d : String} (h : c.descriptionText = "")
      (htags : c.tags = before ++ t :: after) (hfirst : ∀ u ∈ before, ∀ e, ¬ DescribesParam u e)
      (ht : DescribesParam t d) : IsChecked c d t.location

theorem saidBy_eq_some {t : Tag} {d : String} {l : Location} :
    saidBy? t = some (d, l) ↔ t.description = some d ∧ d ≠ "" ∧ l = t.location := by
  rw [saidBy?, Option.map_eq_some_iff]
  simp only [Option.filter_eq_some_iff, Bool.not_eq_true', Prod.mk.injEq,
    String.isEmpty_eq_false_iff]
  constructor
  · rintro ⟨d, ⟨hd, hne⟩, rfl, rfl⟩
    exact ⟨hd, hne, rfl⟩
  · rintro ⟨hd, hne, rfl⟩
    exact ⟨d, ⟨hd, hne⟩, rfl, rfl⟩

/-- What the description of a tag says of a parameter, and where. -/
def saidOfParam? (t : Tag) : Option (String × Location) :=
  if t.name = "param" then saidBy? t else none

theorem saidOfParam_eq_some {t : Tag} {d : String} {l : Location} :
    saidOfParam? t = some (d, l) ↔ DescribesParam t d ∧ l = t.location := by
  unfold saidOfParam? DescribesParam
  split
  · rename_i hname
    rw [saidBy_eq_some]
    simp [hname, and_assoc]
  · rename_i hname
    simp [hname]

theorem saidOfParam_eq_none {t : Tag} : saidOfParam? t = none ↔ ∀ d, ¬ DescribesParam t d := by
  rw [Option.eq_none_iff_forall_ne_some]
  constructor
  · intro h d hd
    exact h (d, t.location) (saidOfParam_eq_some.mpr ⟨hd, rfl⟩)
  · rintro h ⟨d, l⟩ hs
    exact h d (saidOfParam_eq_some.mp hs).1

theorem findSome_tagsNamed (c : Comment) :
    (c.tagsNamed "param").findSome? saidBy? = c.tags.findSome? saidOfParam? := by
  rw [Comment.tagsNamed]
  induction c.tags with
  | nil => rfl
  | cons t ts ih =>
    by_cases hname : t.name = "param" <;>
      simp [List.findSome?_cons, saidOfParam?, hname, ih]

theorem sentence_eq_some {c : Comment} {text : String} {l : Location} :
    sentence? c = some (text, l) ↔ IsChecked c text l := by
  rw [sentence?, findSome_tagsNamed]
  by_cases h : c.descriptionText = ""
  · rw [if_pos (String.isEmpty_iff.mpr h), List.findSome?_eq_some_iff]
    constructor
    · rintro ⟨before, t, after, htags, hsaid, hbefore⟩
      obtain ⟨ht, rfl⟩ := saidOfParam_eq_some.mp hsaid
      exact .param h htags (fun u hu => saidOfParam_eq_none.mp (hbefore u hu)) ht
    · intro hc
      cases hc with
      | description hne => exact absurd h hne
      | param _ htags hfirst ht =>
        exact ⟨_, _, _, htags, saidOfParam_eq_some.mpr ⟨ht, rfl⟩,
          fun u hu => saidOfParam_eq_none.mpr (hfirst u hu)⟩
  · rw [if_neg (fun he => h (String.isEmpty_iff.mp he)), Option.some.injEq, Prod.mk.injEq]
    constructor
    · rintro ⟨rfl, rfl⟩
      exact .description h
    · intro hc
      cases hc with
      | description => exact ⟨rfl, rfl⟩
      | param he => exact absurd he h

/-- Nothing is checked in a comment without a description whose tags describe no parameter. -/
theorem sentence_eq_none {c : Comment} :
    sentence? c = none ↔ c.descriptionText = "" ∧ ∀ t ∈ c.tags, ∀ d, ¬ DescribesParam t d := by
  rw [sentence?, findSome_tagsNamed]
  by_cases h : c.descriptionText = ""
  · rw [if_pos (String.isEmpty_iff.mpr h), List.findSome?_eq_none_iff]
    simp only [saidOfParam_eq_none, h, true_and]
  · rw [if_neg (fun he => h (String.isEmpty_iff.mp he))]
    simp [h]

/-- In a comment that was read, the tags of parameters are those with one of their keywords. -/
theorem name_eq_param_iff {t : Tag} (h : t.IsRead) :
    t.name = "param" ↔ t.keyword ∈ ["param", "arg", "argument"] := by
  rw [h.eq_parts.1, Keyword.tagName_eq]
  constructor
  · split
    · rename_i hk
      intro _
      rcases hk with hk | hk <;> simp [hk]
    · intro hk
      simp [hk]
  · intro hk
    rw [← Keyword.tagName_eq]
    exact Keyword.tagName_of_isParam (List.contains_iff_mem.mpr hk)

/-! ## The rule -/

/-- What is reported if a text is no sentence. -/
def incomplete (l : Location) : Finding :=
  ⟨.requireDescriptionCompleteSentence,
    "Description must start with an upper case letter and end with a period", l⟩

/-- The description of a comment is checked if there is one, otherwise the first description of a
parameter, under any of its keywords; if there is neither, or no comment, nothing is reported.
What is checked passes if, trimmed, it is a sentence, and otherwise is reported once, at its
place. -/
theorem sentence_checked (signature : Signature) :
    (∀ c text l, IsChecked c text l →
      (requireDescriptionCompleteSentence ⟨some c, signature⟩ = [] ↔
        IsSentence (Text.trim text.toList)) ∧
      (¬ IsSentence (Text.trim text.toList) →
        requireDescriptionCompleteSentence ⟨some c, signature⟩ = [incomplete l])) ∧
    (∀ c : Comment, c.descriptionText = "" → (∀ t ∈ c.tags, ∀ d, ¬ DescribesParam t d) →
      requireDescriptionCompleteSentence ⟨some c, signature⟩ = []) ∧
    requireDescriptionCompleteSentence ⟨none, signature⟩ = [] ∧
    ∀ raw start, ∀ t ∈ (Comment.parse raw start).tags,
      t.name = "param" ↔ t.keyword ∈ ["param", "arg", "argument"] := by
  refine ⟨fun c text l h => ?_, fun c h hnone => ?_, rfl, fun raw start t ht => ?_⟩
  · have hsentence : sentence? c = some (text, l) := sentence_eq_some.mpr h
    rw [requireDescriptionCompleteSentence, Option.bind_some, hsentence, ← isSentence_iff]
    by_cases hs : isSentence (Text.trim text.toList) = true <;> simp [hs, incomplete]
  · have hsentence : sentence? c = none := sentence_eq_none.mpr ⟨h, hnone⟩
    rw [requireDescriptionCompleteSentence, Option.bind_some, hsentence]
  · exact name_eq_param_iff ((Comment.isRead_parse raw start).tags t ht)

/-- The second parameter is the first with a description, and that is no sentence: the period at
the end of its second line stands behind white space. -/
theorem sentence_checked_spaced :
    let c := Comment.parse "/** @param a\n * @Arg b One.\n *   Two\u2028. */" .start
    let signature : Signature :=
      ⟨"f", [⟨"a", false⟩, ⟨"b", false⟩], .unknown, .none, .none, false, .start⟩
    IsChecked c "One.\nTwo\u2028." ⟨2, 3⟩ ∧ ¬ IsSentence (Text.trim "One.\nTwo\u2028.".toList) ∧
      requireDescriptionCompleteSentence ⟨some c, signature⟩ = [incomplete ⟨2, 3⟩] := by
  intro c signature
  have hsentence : sentence? c = some ("One.\nTwo\u2028.", ⟨2, 3⟩) := by decide +kernel
  have hchecked : IsChecked c "One.\nTwo\u2028." ⟨2, 3⟩ := sentence_eq_some.mp hsentence
  have hnot : ¬ IsSentence (Text.trim "One.\nTwo\u2028.".toList) := by
    rw [← isSentence_iff]
    decide +kernel
  exact ⟨hchecked, hnot, ((sentence_checked signature).1 c _ _ hchecked).2 hnot⟩

end Rule

end DocCheck
