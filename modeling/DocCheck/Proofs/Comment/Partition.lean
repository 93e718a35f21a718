import DocCheck.Proofs.Comment.Layout
import DocCheck.Rule.Presence

/-!
# How the lines of a comment are shared out

Each trimmed line of a comment goes to one place: to a paragraph of the
description, to a tag, or, if it is empty, between two of these. The first line
that starts a tag divides the lines of the description from those of the tags; in
front of it the paragraphs are the runs between empty lines, behind it each tag has
the lines up to the next one, less the empty ones at its end.

Results:

* `paragraphsFrom_eq`: the paragraphs are the maximal runs of lines that are not empty.
* `texts_blocks`: the lines before the first tag, and behind it the blocks in one piece.
* `exists_dropEmpty`: a block is the lines of its tag with empty lines behind them.
* `lines_partitioned`: every line is in one place, and the two rules on the empty line between the
  description and the tags look at the line before the first tag.
-/
namespace DocCheck

namespace Comment

/-! ## The description -/

/-- The maximal runs of texts that are not empty. -/
def fullRuns (texts : List (List Char)) : List (List (List Char)) :=
  (texts.splitOnP List.isEmpty).filter fun run => !run.isEmpty

/-- The runs that are found from left to right are those between the empty texts. -/
theorem paragraphsFrom_eq (run texts : List (List Char)) :
    paragraphsFrom run texts =
      (texts.splitOnPPrepend List.isEmpty run).filter fun run => !run.isEmpty := by
  induction texts generalizing run with
  | nil => cases run <;> simp [paragraphsFrom]
  | cons text texts ih =>
    rw [paragraphsFrom, List.splitOnPPrepend_cons_eq_if]
    by_cases ht : text.isEmpty = true
    · rw [if_pos ht, if_pos ht]
      cases run <;> simp [ih]
    · rw [if_neg ht, if_neg ht, ih]

theorem paragraphs_eq (ls : List Line) :
    paragraphs ls = (fullRuns (textsOf ls)).map fun run => String.ofList (joinLines run) := by
  rw [fullRuns, List.splitOnP_eq_splitOnPPrepend, ← paragraphsFrom_eq]
  rfl

/-! ## The tags -/

/-- The lines before the first tag are cut off, and the others are shared out among the blocks. -/
theorem texts_blocks (start : Location) (index : Nat) (ls : List Line) :
    (blocks start index ls).1 = (textsOf ls).takeWhile (fun text => !Keyword.startsTag text) ∧
      (blocks start index ls).2.flatMap Block.texts =
        (textsOf ls).dropWhile fun text => !Keyword.startsTag text := by
  induction ls generalizing index with
  | nil => exact ⟨rfl, rfl⟩
  | cons l ls ih =>
    obtain ⟨htexts, hblocks⟩ := ih (index + 1)
    simp only [blocks, textsOf_cons, Line.startsTag_eq]
    by_cases hs : Keyword.startsTag (Text.trim l.text) = true
    · rw [if_pos hs, List.takeWhile_cons_of_neg (by simp [hs]),
        List.dropWhile_cons_of_neg (by simp [hs])]
      refine ⟨rfl, ?_⟩
      rw [List.flatMap_cons, htexts, hblocks, List.cons_append, List.takeWhile_append_dropWhile]
    · rw [if_neg hs, List.takeWhile_cons_of_pos (by simp [hs]),
        List.dropWhile_cons_of_pos (by simp [hs])]
      exact ⟨by rw [htexts], hblocks⟩

def emptyAtEnd (texts : List (List Char)) : Nat := (texts.reverse.takeWhile List.isEmpty).length

/-- Texts are those without the empty ones at the end, and so many empty ones. -/
theorem exists_dropEmpty (texts : List (List Char)) :
    texts = dropEmpty texts ++ List.replicate (emptyAtEnd texts) [] := by
  have hempty : texts.reverse.takeWhile List.isEmpty =
      List.replicate (emptyAtEnd texts) [] := by
    refine List.eq_replicate_iff.mpr ⟨rfl, fun text ht => ?_⟩
    exact List.isEmpty_iff.mp (List.all_eq_true.mp List.all_takeWhile text ht)
  have h := congrArg List.reverse
    (List.takeWhile_append_dropWhile (p := List.isEmpty) (l := texts.reverse))
  rw [hempty, List.reverse_append, List.reverse_replicate, List.reverse_reverse] at h
  exact h.symm

theorem texts_toTag {b : Block} (h : IsBlock b) :
    b.texts = b.toTag.lines ++ List.replicate (emptyAtEnd b.texts) [] := by
  rw [lines_toTag h]
  exact exists_dropEmpty b.texts

/-! ## Before and behind the first tag -/

theorem take_firstTag (texts : List (List Char)) :
    texts.take (texts.findIdx Keyword.startsTag) =
      texts.takeWhile fun text => !Keyword.startsTag text := by
  simp [List.takeWhile_eq_take_findIdx_not]

theorem drop_firstTag (texts : List (List Char)) :
    texts.drop (texts.findIdx Keyword.startsTag) =
      texts.dropWhile fun text => !Keyword.startsTag text := by
  simp [List.dropWhile_eq_drop_findIdx_not]

/-- Empty lines in front of the first tag, by the last line there. -/
theorem emptyAtEnd_eq_zero {texts : List (List Char)} (h : texts ≠ []) :
    emptyAtEnd texts = 0 ↔ texts.getLast? ≠ some [] := by
  obtain ⟨init, text, rfl⟩ := (List.eq_nil_or_concat texts).resolve_left h
  cases text <;> simp [emptyAtEnd]

/-- The lines behind the first tag are those of the tags, each with empty lines behind them. -/
theorem exists_gaps (raw : String) (start : Location) :
    ∃ gaps : List Nat, gaps.length = (parse raw start).tags.length ∧
      (textsOf (contentLines raw.toList)).dropWhile (fun text => !Keyword.startsTag text) =
        (List.zipWith (fun t k => t.lines ++ List.replicate k []) (parse raw start).tags
          gaps).flatten := by
  have hlines : ∀ l ∈ contentLines raw.toList, IsLine (Text.trim l.text) := fun _ hl =>
    isLine_contentLines hl
  have hblocks := (isBlock_blocks start 0 hlines).2
  refine ⟨(blocks start 0 (contentLines raw.toList)).2.map fun b => emptyAtEnd b.texts, ?_, ?_⟩
  · simp [parse]
  · rw [← (texts_blocks start 0 (contentLines raw.toList)).2, parse, List.zipWith_map,
      List.zipWith_self, List.flatMap]
    exact congrArg List.flatten (List.map_congr_left fun b hb => texts_toTag (hblocks b hb))

/-! ## The lines in front of the first tag -/

/-- The trimmed lines of a comment in front of the first one that starts a tag. -/
def descriptionTexts (raw : String) : List (List Char) :=
  (textsOf (contentLines raw.toList)).take
    ((textsOf (contentLines raw.toList)).findIdx Keyword.startsTag)

theorem descriptionTexts_eq (raw : String) :
    descriptionTexts raw = textsOf ((contentLines raw.toList).takeWhile fun l => !l.startsTag) := by
  rw [textsOf_takeWhile, descriptionTexts, ← take_firstTag]

theorem description_parse (raw : String) (start : Location) :
    (parse raw start).description =
      (fullRuns (descriptionTexts raw)).map fun run => String.ofList (joinLines run) := by
  rw [descriptionTexts_eq]
  exact paragraphs_eq _

theorem blankLines_parse (raw : String) (start : Location) :
    (parse raw start).blankLinesAfterDescription =
      if (parse raw start).description = [] then 0 else emptyAtEnd (descriptionTexts raw) := by
  have hcount : (parse raw start).blankLinesAfterDescription =
      if (parse raw start).description.isEmpty then 0
      else trailingBlanks ((contentLines raw.toList).takeWhile fun l => !l.startsTag) := rfl
  rw [hcount, trailingBlanks_eq, ← descriptionTexts_eq]
  simp only [List.isEmpty_iff]
  rfl

/-- A description has a line in front of the first tag. -/
theorem exists_lastText {raw : String} {start : Location}
    (hd : (parse raw start).description ≠ []) :
    ∃ text, (descriptionTexts raw).getLast? = some text ∧
      ((parse raw start).blankLinesAfterDescription = 0 ↔ text ≠ []) := by
  have hne : descriptionTexts raw ≠ [] := by
    intro he
    rw [description_parse, he] at hd
    exact hd rfl
  refine ⟨(descriptionTexts raw).getLast hne, List.getLast?_eq_some_getLast hne, ?_⟩
  rw [blankLines_parse, if_neg hd, emptyAtEnd_eq_zero hne, List.getLast?_eq_some_getLast hne]
  simp

end Comment

/-! ## The rules on the line before the first tag -/

namespace Rule

theorem requireNewlineAfterDescription_ne_nil (d : Comment) (signature : Signature) :
    requireNewlineAfterDescription ⟨some d, signature⟩ ≠ [] ↔
      d.description ≠ [] ∧ d.tags ≠ [] ∧ d.blankLinesAfterDescription = 0 := by
  obtain ⟨description, tags, blanks, start⟩ := d
  cases description <;> cases tags <;> cases blanks <;>
    simp [requireNewlineAfterDescription, gapBeforeTags?]

theorem disallowNewlineAfterDescription_ne_nil (d : Comment) (signature : Signature) :
    disallowNewlineAfterDescription ⟨some d, signature⟩ ≠ [] ↔
      d.description ≠ [] ∧ d.tags ≠ [] ∧ d.blankLinesAfterDescription ≠ 0 := by
  obtain ⟨description, tags, blanks, start⟩ := d
  cases description <;> cases tags <;> cases blanks <;>
    simp [disallowNewlineAfterDescription, gapBeforeTags?]

end Rule

namespace Comment

/-- Every line is in one place. The paragraphs are the maximal runs of lines that are not empty
before the first line that starts a tag; the lines from there on are those of the tags, each with
some empty lines behind them; and the number of empty lines behind a description is that of those
in front of the first tag. So where a comment has both a description and tags, an empty line is
missed if the line before the first tag is not empty, and else one is found too many. -/
theorem lines_partitioned (raw : String) (start : Location) :
    let d := parse raw start
    let texts := textsOf (contentLines raw.toList)
    let before := texts.take (texts.findIdx Keyword.startsTag)
    d.description = (fullRuns before).map (fun run => String.ofList (joinLines run)) ∧
      (∃ gaps : List Nat, gaps.length = d.tags.length ∧
        texts.drop (texts.findIdx Keyword.startsTag) =
          (List.zipWith (fun t k => t.lines ++ List.replicate k []) d.tags gaps).flatten) ∧
      (∀ t ∈ d.tags, IsTagText t.lines) ∧
      d.blankLinesAfterDescription =
        (if d.description = [] then 0 else (before.reverse.takeWhile List.isEmpty).length) ∧
      ∀ signature : Signature,
        (Rule.requireNewlineAfterDescription ⟨some d, signature⟩ ≠ [] ↔
          d.description ≠ [] ∧ d.tags ≠ [] ∧ ∃ text, before.getLast? = some text ∧ text ≠ []) ∧
        (Rule.disallowNewlineAfterDescription ⟨some d, signature⟩ ≠ [] ↔
          d.description ≠ [] ∧ d.tags ≠ [] ∧ before.getLast? = some []) := by
  intro d texts before
  refine ⟨description_parse raw start, ?_,
    fun t ht => ((isRead_parse raw start).tags t ht).isTagText, blankLines_parse raw start,
    fun signature => ⟨?_, ?_⟩⟩
  · rw [drop_firstTag]
    exact exists_gaps raw start
  · rw [Rule.requireNewlineAfterDescription_ne_nil]
    refine and_congr_right fun hd => and_congr_right fun _ => ?_
    obtain ⟨text, htext, hzero⟩ := exists_lastText hd
    rw [show before.getLast? = some text from htext]
    simp [d, hzero]
  · rw [Rule.disallowNewlineAfterDescription_ne_nil]
    refine and_congr_right fun hd => and_congr_right fun _ => ?_
    obtain ⟨text, htext, hzero⟩ := exists_lastText hd
    rw [show before.getLast? = some text from htext]
    simp [d, hzero]

/-- Two paragraphs, and a tag with an empty line in it and one behind it. -/
theorem lines_partitioned_paragraphs :
    let d :=
      parse "/** Adds.\n *\n * Twice.\n *\n * @param a the\n *\n *   first\n *\n * @x\n */" .start
    d.description = ["Adds.", "Twice."] ∧ d.blankLinesAfterDescription = 1 ∧
      (∃ t ∈ d.tags, t.raw = "@param a the\n\nfirst" ∧ IsTagText t.lines) ∧
      ∀ signature : Signature,
        Rule.disallowNewlineAfterDescription ⟨some d, signature⟩ ≠ [] := by
  intro d
  obtain ⟨-, -, htags, -, hrules⟩ := lines_partitioned
    "/** Adds.\n *\n * Twice.\n *\n * @param a the\n *\n *   first\n *\n * @x\n */" .start
  have hraw : d.tags.map Tag.raw = ["@param a the\n\nfirst", "@x"] := by decide +kernel
  have hdescription : d.description = ["Adds.", "Twice."] := by decide +kernel
  obtain ⟨t, ht, htext⟩ : ∃ t ∈ d.tags, t.raw = "@param a the\n\nfirst" :=
    List.mem_map.mp (by rw [hraw]; exact List.mem_cons_self)
  refine ⟨hdescription, by decide +kernel, ⟨t, ht, htext, htags t ht⟩, fun signature => ?_⟩
  refine (hrules signature).2.mpr ⟨by rw [hdescription]; simp, ?_, by decide +kernel⟩
  exact List.ne_nil_of_mem ht

end Comment

end DocCheck
