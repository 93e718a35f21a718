import DocCheck.Proofs.Comment.Invariant

/-!
# The normal form of comments

`render` writes a comment with one star before each line, an empty line between
paragraphs and its tags line by line. Each line that it writes is read back as
the text that it was written for, so the paragraphs and tags are found again
where they were written. The lines of a comment that was read are fit for that,
whatever the text was that it was read from.

Results:

* `parse_of_lines`: description and tags, from the lines before the first tag and the others.
* `IsRead.parse_render`: a comment in the form in which comments are read is read back.
* `parse_render_parse`: so is every comment that was read.
-/
namespace DocCheck

def Tag.written (t : Tag) : List (List Char) := t.lines.map Comment.decoratedOrBare

namespace Comment

/-! ## Writing comments -/

/-- The paragraphs with an empty line between them. -/
def writtenDescription (d : Comment) : List (List Char) :=
  [[' ', '*']].intercalate (d.description.map fun p => (splitLines p.toList).map decorated)

def writtenBlanks (d : Comment) : List (List Char) :=
  if d.tags.isEmpty then [] else List.replicate d.blankLinesAfterDescription [' ', '*']

def writtenBefore (d : Comment) (index : Nat) : List (List Char) :=
  ['/', '*', '*'] :: (d.writtenDescription ++ d.writtenBlanks ++
    (d.tags.take index).flatMap Tag.written)

def render (d : Comment) : String :=
  String.ofList (joinLines (d.writtenBefore d.tags.length ++ [[' ', '*', '/']]))

/-- Where the lines of a tag stand in the written comment. -/
theorem render_eq (d : Comment) (k : Fin d.tags.length) :
    d.render = String.ofList (joinLines (d.writtenBefore k ++ (d.tags[k].written ++
      ((d.tags.drop (k + 1)).flatMap Tag.written ++ [[' ', '*', '/']])))) := by
  have htags : d.tags.take k ++ d.tags[k] :: d.tags.drop (k + 1) = d.tags := by
    rw [Fin.getElem_fin, ← List.drop_eq_getElem_cons, List.take_append_drop]
  have hwritten := congrArg (List.flatMap Tag.written) htags
  rw [List.flatMap_append, List.flatMap_cons] at hwritten
  rw [render, writtenBefore, writtenBefore, List.take_length, ← hwritten]
  simp

/-! ## Reading line by line -/

def textsOf (ls : List Line) : List (List Char) := ls.map fun l => Text.trim l.text

theorem blocks_append {start : Location} {before : List Line} (rest : List Line) (index : Nat)
    (h : ∀ l ∈ before, l.startsTag = false) :
    blocks start index (before ++ rest) =
      (textsOf before ++ (blocks start (index + before.length) rest).1,
        (blocks start (index + before.length) rest).2) := by
  induction before generalizing index with
  | nil => rfl
  | cons l before ih =>
    have hl := h l (by simp)
    rw [List.cons_append, blocks, ih (index + 1) fun m hm => h m (by simp [hm])]
    simp only [hl, List.length_cons, Nat.add_assoc, Nat.add_comm 1]
    rfl

theorem blocks_cons {start : Location} {l : Line} (rest : List Line) (index : Nat)
    (h : l.startsTag = true) :
    blocks start index (l :: rest) =
      ([], ⟨tagLocation start index l, Text.trim l.text :: (blocks start (index + 1) rest).1⟩ ::
        (blocks start (index + 1) rest).2) := by
  rw [blocks]
  simp only [h]
  rfl

theorem textsOf_cons (l : Line) (ls : List Line) :
    textsOf (l :: ls) = Text.trim l.text :: textsOf ls := rfl

theorem textsOf_append (ls ls' : List Line) : textsOf (ls ++ ls') = textsOf ls ++ textsOf ls' :=
  List.map_append

/-- A comment from the lines before its first tag and the others. -/
theorem parse_of_lines {raw : String} {start : Location} {before rest : List Line}
    (h : contentLines raw.toList = before ++ rest) (hb : ∀ l ∈ before, l.startsTag = false)
    (hr : ∀ l r, rest = l :: r → l.startsTag = true) :
    parse raw start =
      ⟨paragraphs before, (blocks start before.length rest).2.map Block.toTag,
        if (paragraphs before).isEmpty then 0 else trailingBlanks before, start⟩ := by
  have hbefore : (before ++ rest).takeWhile (fun l => !l.startsTag) = before := by
    rw [List.takeWhile_append_of_pos (by simpa using hb)]
    cases rest with
    | nil => simp
    | cons l r => simp [hr l r rfl]
  rw [parse, h]
  simp only [hbefore, blocks_append rest 0 hb, Nat.zero_add]

/-! ## Paragraphs -/

theorem paragraphsFrom_append {p : List (List Char)} (h : ∀ text ∈ p, text ≠ [])
    (run rest : List (List Char)) :
    paragraphsFrom run (p ++ rest) = paragraphsFrom (p.reverse ++ run) rest := by
  induction p generalizing run with
  | nil => rfl
  | cons text p ih =>
    have ht : text.isEmpty = false := by simpa using h text (by simp)
    rw [List.cons_append, paragraphsFrom, if_neg (by simp [ht]), ih fun t hm => h t (by simp [hm])]
    simp

theorem paragraphsFrom_blanks (k : Nat) : paragraphsFrom [] (List.replicate k []) = [] := by
  induction k with
  | zero => rfl
  | succ k ih => simp [List.replicate_succ, paragraphsFrom, ih]

theorem paragraphsFrom_run {run : List (List Char)} (hne : run ≠ []) (k : Nat) :
    paragraphsFrom run (List.replicate k []) = [run.reverse] := by
  cases k with
  | zero => simp [paragraphsFrom, hne]
  | succ k => simp [List.replicate_succ, paragraphsFrom, hne, paragraphsFrom_blanks]

/-- Paragraphs with an empty line between them are found again. -/
theorem paragraphsFrom_intercalate : ∀ ps : List (List (List Char)), (∀ p ∈ ps, IsParagraph p) →
    ∀ k, paragraphsFrom [] ([[]].intercalate ps ++ List.replicate k []) = ps
  | [], _, k => by simpa using paragraphsFrom_blanks k
  | [p], h, k => by
    have hp := h p (by simp)
    rw [List.intercalate_singleton, paragraphsFrom_append hp.full, List.append_nil,
      paragraphsFrom_run (by simpa using hp.ne_nil), List.reverse_reverse]
  | p :: q :: ps, h, k => by
    have hp := h p (by simp)
    have ih := paragraphsFrom_intercalate (q :: ps) (fun r hr => h r (by simp [hr])) k
    rw [List.intercalate_cons_cons, List.append_assoc, List.append_assoc,
      paragraphsFrom_append hp.full, List.append_nil, List.singleton_append, paragraphsFrom,
      if_pos (by simp), if_neg (by simpa using hp.ne_nil), ih, List.reverse_reverse]

theorem startsTag_lineAt {text : List Char} (h : IsLine text) :
    (lineAt text).startsTag = Keyword.startsTag text := by
  rw [Line.startsTag_eq, lineAt, h.trim]

theorem unstarted_lineAt {texts : List (List Char)}
    (h : ∀ text ∈ texts, IsLine text ∧ Keyword.startsTag text = false) :
    ∀ l ∈ texts.map lineAt, l.startsTag = false := by
  intro l hl
  obtain ⟨text, ht, rfl⟩ := List.mem_map.mp hl
  rw [startsTag_lineAt (h text ht).1, (h text ht).2]

theorem textsOf_lineAt {texts : List (List Char)} (h : ∀ text ∈ texts, IsLine text) :
    textsOf (texts.map lineAt) = texts := by
  rw [textsOf, List.map_map]
  calc texts.map ((fun l : Line => Text.trim l.text) ∘ lineAt) = texts.map id :=
        List.map_congr_left fun text ht => (h text ht).trim
    _ = texts := List.map_id texts

theorem paragraphs_of_texts {before : List Line} {ps : List (List (List Char))}
    (h : ∀ p ∈ ps, IsParagraph p) {k : Nat}
    (ht : textsOf before = [] :: ([[]].intercalate ps ++ List.replicate k [])) :
    paragraphs before = ps.map fun p => String.ofList (joinLines p) := by
  have he : paragraphsFrom [] (textsOf before) = ps := by
    rw [ht]
    exact paragraphsFrom_intercalate ps h k
  rw [paragraphs]
  exact congrArg _ he

theorem trailingBlanks_eq (ls : List Line) :
    trailingBlanks ls = ((textsOf ls).reverse.takeWhile List.isEmpty).length := by
  rw [trailingBlanks, textsOf, ← List.map_reverse, List.takeWhile_map, List.length_map]
  rfl

/-- The last line of the last paragraph. -/
theorem exists_last_intercalate : ∀ ps : List (List (List Char)), ps ≠ [] →
    (∀ p ∈ ps, IsParagraph p) →
    ∃ before text, [[]].intercalate ps = before ++ [text] ∧ text ≠ []
  | [], hne, _ => absurd rfl hne
  | [p], _, h => by
    have hp := h p (by simp)
    refine ⟨p.dropLast, p.getLast hp.ne_nil, ?_, hp.full _ (List.getLast_mem hp.ne_nil)⟩
    rw [List.intercalate_singleton, List.dropLast_concat_getLast]
  | p :: q :: ps, _, h => by
    obtain ⟨before, text, he, ht⟩ := exists_last_intercalate (q :: ps) (by simp)
      fun r hr => h r (by simp [hr])
    refine ⟨p ++ [[]] ++ before, text, ?_, ht⟩
    rw [List.intercalate_cons_cons, he, List.append_assoc (p ++ [[]])]

theorem trailingBlanks_of_texts {before : List Line} {ps : List (List (List Char))} (hne : ps ≠ [])
    (h : ∀ p ∈ ps, IsParagraph p) {k : Nat}
    (ht : textsOf before = [] :: ([[]].intercalate ps ++ List.replicate k [])) :
    trailingBlanks before = k := by
  obtain ⟨init, text, he, hfull⟩ := exists_last_intercalate ps hne h
  have hf : text.isEmpty = false := by simpa using hfull
  rw [trailingBlanks_eq, ht, he, List.reverse_cons, List.reverse_append, List.reverse_replicate,
    List.append_assoc, List.takeWhile_append_of_pos]
  · simp [hf]
  · intro t hm
    rw [List.eq_of_mem_replicate hm]
    rfl

/-! ## Tags -/

theorem dropEmpty_append {texts empties : List (List Char)} (h : IsTagText texts)
    (he : ∀ text ∈ empties, text = []) : dropEmpty (texts ++ empties) = texts := by
  rw [dropEmpty, List.reverse_append, List.dropWhile_append_of_pos]
  · cases hr : texts.reverse with
    | nil => exact absurd (List.reverse_eq_nil_iff.mp hr) h.ne_nil
    | cons text r =>
      have hf : text.isEmpty = false := by simpa using h.last text r hr
      rw [List.dropWhile_cons_of_neg (by simp [hf]), ← hr, List.reverse_reverse]
  · intro text ht
    rw [he text (List.mem_reverse.mp ht)]
    rfl

theorem tagLocation_lineAt {text : List Char} (h : IsLine text)
    (hs : Keyword.startsTag text = true) {index : Nat} (hi : 0 < index) :
    tagLocation .start index (lineAt text) = ⟨1 + index, 3⟩ := by
  have hne : text.isEmpty = false := by simpa using Keyword.startsTag_ne_nil hs
  have hblank : text.takeWhile Text.isBlank = [] := by
    cases text with
    | nil => rfl
    | cons c r => simp [Text.isBlank_of_trim_eq h.trim]
  rw [tagLocation, if_neg (by omega)]
  simp [lineAt, hne, hblank, Location.start]

theorem toTag_eq {t : Tag} (h : t.IsRead) (l : Location) {empties : List (List Char)}
    (he : ∀ text ∈ empties, text = []) :
    Block.toTag ⟨l, t.lines ++ empties⟩ = { t with location := l } := by
  have hraw : joinLines t.lines = t.raw.toList := intercalate_splitLines t.raw.toList
  show Tag.parse (joinLines (dropEmpty (t.lines ++ empties))) l = _
  rw [dropEmpty_append h.isTagText he, hraw, h.parse]

/-- The lines of a tag are cut off as one block. -/
theorem blocks_tag {t : Tag} (h : t.IsRead) {index : Nat} (hi : 0 < index) (rest : List Line) :
    blocks .start index (t.lines.map lineAt ++ rest) =
      ([], ⟨⟨1 + index, 3⟩, t.lines ++ (blocks .start (index + t.lines.length) rest).1⟩ ::
        (blocks .start (index + t.lines.length) rest).2) := by
  obtain ⟨first, others, he, hs, hplain⟩ := h.isTagText.starts
  have hline := h.isTagText.isLine
  rw [he] at hline ⊢
  have hfirst := hline first (by simp)
  have hothers : ∀ text ∈ others, IsLine text := fun text ht => hline text (by simp [ht])
  have hunstarted := unstarted_lineAt fun text ht => ⟨hothers text ht, hplain text ht⟩
  have hindex : index + 1 + others.length = index + (first :: others).length := by
    rw [List.length_cons]
    omega
  rw [List.map_cons, List.cons_append, blocks_cons _ _ ((startsTag_lineAt hfirst).trans hs),
    blocks_append _ _ hunstarted, textsOf_lineAt hothers, tagLocation_lineAt hfirst hs hi,
    List.length_map, hindex, List.cons_append]
  simp [lineAt, hfirst.trim]

/-- The tags of a comment are found where their lines are. -/
theorem blocks_written {tags : List Tag} (h : ∀ t ∈ tags, t.IsRead) {index : Nat} (hi : 0 < index) :
    (∀ text ∈ (blocks .start index ((tags.flatMap Tag.lines).map lineAt ++ [⟨[], 1⟩])).1,
      text = []) ∧
    (blocks .start index ((tags.flatMap Tag.lines).map lineAt ++ [⟨[], 1⟩])).2.map Block.toTag =
      tags.mapIdx fun k t =>
        { t with
          location := ⟨1 + (index + ((tags.take k).flatMap Tag.lines).length : Nat), 3⟩ } := by
  induction tags generalizing index with
  | nil =>
    have hclosing : blocks .start index [⟨[], 1⟩] = ([[]], []) := rfl
    simp [hclosing]
  | cons t ts ih =>
    have ht := h t (by simp)
    have hi' : 0 < index + t.lines.length := by omega
    obtain ⟨hempty, htags⟩ := ih (fun u hu => h u (by simp [hu])) hi'
    rw [List.flatMap_cons, List.map_append, List.append_assoc, blocks_tag ht hi]
    refine ⟨by simp, ?_⟩
    rw [List.map_cons, htags, toTag_eq ht _ hempty, List.mapIdx_cons]
    simp [Nat.add_assoc]

/-! ## Whole comments -/

theorem map_intercalate {α β : Type} (f : α → β) (separator : List α) : ∀ xss : List (List α),
    (separator.intercalate xss).map f = (separator.map f).intercalate (xss.map (List.map f))
  | [] => rfl
  | [xs] => by simp
  | xs :: ys :: xss => by
    have ih := map_intercalate f separator (ys :: xss)
    simp only [List.map_cons] at ih
    simp [List.intercalate_cons_cons, ih]

def paragraphTexts (d : Comment) : List (List (List Char)) :=
  d.description.map fun p => splitLines p.toList

theorem paragraphTexts_join (d : Comment) :
    (d.paragraphTexts.map fun p => String.ofList (joinLines p)) = d.description := by
  rw [paragraphTexts, List.map_map]
  calc d.description.map _ = d.description.map id := List.map_congr_left fun p _ => by
        show String.ofList (joinLines (splitLines p.toList)) = p
        rw [joinLines, intercalate_splitLines, String.ofList_toList]
    _ = d.description := List.map_id d.description

/-- The texts for which lines are written before the first tag. -/
def textsBefore (d : Comment) : List (List Char) :=
  [[]].intercalate d.paragraphTexts ++
    if d.tags.isEmpty then [] else List.replicate d.blankLinesAfterDescription []

/-- What does not depend on the places of tags is kept when they change. -/
theorem map_relocated {α : Type} (f : Tag → α) (hf : ∀ t l, f { t with location := l } = f t)
    (tags : List Tag) (place : Nat → Location) :
    (tags.mapIdx fun k t => { t with location := place k }).map f = tags.map f := by
  induction tags generalizing place with
  | nil => rfl
  | cons t ts ih =>
    rw [List.mapIdx_cons, List.map_cons, List.map_cons, hf, ih fun k => place (k + 1)]

namespace IsRead

variable {d : Comment} (h : d.IsRead)
include h

theorem isParagraph : ∀ p ∈ d.paragraphTexts, IsParagraph p := by
  intro p hp
  obtain ⟨s, hs, rfl⟩ := List.mem_map.mp hp
  exact h.description s hs

theorem plain_textsBefore :
    ∀ text ∈ d.textsBefore, IsLine text ∧ Keyword.startsTag text = false := by
  intro text ht
  have hnil : IsLine [] ∧ Keyword.startsTag [] = false := ⟨isLine_nil, rfl⟩
  rcases List.mem_append.mp ht with ht | ht
  · rcases Text.mem_of_mem_intercalate ht with ht | ⟨p, hp, ht⟩
    · rw [List.mem_singleton.mp ht]
      exact hnil
    · exact ⟨(h.isParagraph p hp).isLine text ht, (h.isParagraph p hp).plain text ht⟩
  · split at ht
    · cases ht
    · rw [List.eq_of_mem_replicate ht]
      exact hnil

/-- The lines before a tag are written for the texts before the first tag and those of the tags
before it. -/
theorem writtenBefore_eq (k : Nat) :
    d.writtenBefore k = ['/', '*', '*'] ::
      (d.textsBefore ++ (d.tags.take k).flatMap Tag.lines).map decoratedOrBare := by
  have hdescription : d.writtenDescription =
      ([[]].intercalate d.paragraphTexts).map decoratedOrBare := by
    rw [map_intercalate, writtenDescription]
    congr 1
    rw [paragraphTexts, List.map_map]
    refine List.map_congr_left fun p hp => List.map_congr_left fun text ht => ?_
    have hfull := (h.description p hp).full text ht
    rw [decoratedOrBare, if_neg (by simpa using hfull)]
  have hblanks : d.writtenBlanks =
      (if d.tags.isEmpty then [] else List.replicate d.blankLinesAfterDescription []).map
        decoratedOrBare := by
    rw [writtenBlanks]
    split
    · rfl
    · rw [List.map_replicate]
      rfl
  have htags : (d.tags.take k).flatMap Tag.written =
      ((d.tags.take k).flatMap Tag.lines).map decoratedOrBare := by
    rw [List.map_flatMap]
    rfl
  rw [writtenBefore, hdescription, hblanks, htags, textsBefore, List.map_append, List.map_append]

theorem contentLines_render :
    contentLines d.render.toList = ⟨[], 3⟩ :: d.textsBefore.map lineAt ++
      ((d.tags.flatMap Tag.lines).map lineAt ++ [⟨[], 1⟩]) := by
  have hlines : ∀ text ∈ d.textsBefore ++ d.tags.flatMap Tag.lines, IsLine text := by
    intro text ht
    rcases List.mem_append.mp ht with ht | ht
    · exact (h.plain_textsBefore text ht).1
    · obtain ⟨t, htag, ht⟩ := List.mem_flatMap.mp ht
      exact (h.tags t htag).isTagText.isLine text ht
  rw [render, String.toList_ofList, h.writtenBefore_eq, List.take_length,
    contentLines_rendered hlines, List.map_append]
  simp

/-- A comment from the texts before its first tag; the closing line is one of them if there is no
tag. -/
theorem parse_render_of_texts {before rest : List Line} {k : Nat}
    (he : contentLines d.render.toList = before ++ rest) (hb : ∀ l ∈ before, l.startsTag = false)
    (hr : ∀ l r, rest = l :: r → l.startsTag = true)
    (ht : textsOf before = [] :: ([[]].intercalate d.paragraphTexts ++ List.replicate k [])) :
    parse d.render .start =
      ⟨d.description, (blocks .start before.length rest).2.map Block.toTag,
        if d.description.isEmpty then 0 else k, .start⟩ := by
  have hp := paragraphs_of_texts h.isParagraph ht
  rw [d.paragraphTexts_join] at hp
  rw [parse_of_lines he hb hr, hp]
  congr 1
  split
  · rfl
  · rename_i hne
    have hne' : d.paragraphTexts ≠ [] := by simpa [paragraphTexts] using hne
    exact trailingBlanks_of_texts hne' h.isParagraph ht

theorem textsOf_textsBefore : textsOf (d.textsBefore.map lineAt) = d.textsBefore :=
  textsOf_lineAt fun text ht => (h.plain_textsBefore text ht).1

theorem parse_render_nil (htags : d.tags = []) :
    parse d.render .start =
      ⟨d.description, [], if d.description.isEmpty then 0 else 1, .start⟩ := by
  -- without a tag the closing line counts as one more line of the description
  have he : contentLines d.render.toList =
      (⟨[], 3⟩ :: (d.textsBefore.map lineAt ++ [⟨[], 1⟩])) ++ [] := by
    rw [h.contentLines_render, htags]
    simp
  have hb : ∀ l ∈ (⟨[], 3⟩ :: (d.textsBefore.map lineAt ++ [⟨[], 1⟩]) : List Line),
      l.startsTag = false := by
    intro l hl
    rcases List.mem_cons.mp hl with rfl | hl
    · rfl
    · rcases List.mem_append.mp hl with hl | hl
      · exact unstarted_lineAt h.plain_textsBefore l hl
      · rw [List.mem_singleton.mp hl]
        rfl
  have ht : textsOf (⟨[], 3⟩ :: (d.textsBefore.map lineAt ++ [⟨[], 1⟩])) =
      [] :: ([[]].intercalate d.paragraphTexts ++ List.replicate 1 []) := by
    have hbefore : d.textsBefore = [[]].intercalate d.paragraphTexts := by
      simp [textsBefore, htags]
    rw [← hbefore, textsOf_cons, textsOf_append, h.textsOf_textsBefore]
    rfl
  rw [h.parse_render_of_texts he hb (fun _ _ hr => nomatch hr) ht]
  rfl

/-- Every tag of the written comment starts a line. -/
theorem startsTag_tags {l : Line} {r : List Line} (hne : d.tags ≠ [])
    (hr : (d.tags.flatMap Tag.lines).map lineAt ++ [⟨[], 1⟩] = l :: r) : l.startsTag = true := by
  obtain ⟨t, ts, he⟩ := List.exists_cons_of_ne_nil hne
  have ht := (h.tags t (by simp [he])).isTagText
  obtain ⟨first, others, hlines, hs, -⟩ := ht.starts
  have hline := ht.isLine first (by simp [hlines])
  rw [he, List.flatMap_cons, hlines, List.cons_append, List.map_cons, List.cons_append,
    List.cons.injEq] at hr
  rw [← hr.1, startsTag_lineAt hline, hs]

theorem parse_render_of_ne_nil (hne : d.tags ≠ []) :
    parse d.render .start =
      ⟨d.description,
        d.tags.mapIdx fun k t => { t with location := ⟨(d.writtenBefore k).length + 1, 3⟩ },
        d.blankLinesAfterDescription, .start⟩ := by
  have hb : ∀ l ∈ (⟨[], 3⟩ :: d.textsBefore.map lineAt : List Line), l.startsTag = false := by
    intro l hl
    rcases List.mem_cons.mp hl with rfl | hl
    · rfl
    · exact unstarted_lineAt h.plain_textsBefore l hl
  have ht : textsOf (⟨[], 3⟩ :: d.textsBefore.map lineAt) =
      [] :: ([[]].intercalate d.paragraphTexts ++
        List.replicate d.blankLinesAfterDescription []) := by
    rw [textsOf_cons, h.textsOf_textsBefore, textsBefore, if_neg (by simpa using hne)]
    rfl
  have hblank : (if d.description.isEmpty then 0 else d.blankLinesAfterDescription) =
      d.blankLinesAfterDescription := by
    split
    · rename_i hd
      rw [h.blank (List.isEmpty_iff.mp hd)]
    · rfl
  have hpos : 0 < (⟨[], 3⟩ :: d.textsBefore.map lineAt : List Line).length := by simp
  rw [h.parse_render_of_texts h.contentLines_render hb (fun _ _ => h.startsTag_tags hne) ht,
    (blocks_written h.tags hpos).2, hblank]
  congr 2
  funext k t
  rw [h.writtenBefore_eq k]
  simp only [List.length_cons, List.length_map, List.length_append]
  congr 2
  omega

/-- A comment in the form in which comments are read is read back from its written form. -/
theorem parse_render :
    parse d.render .start =
      ⟨d.description,
        d.tags.mapIdx fun k t => { t with location := ⟨(d.writtenBefore k).length + 1, 3⟩ },
        if d.tags.isEmpty then (if d.description.isEmpty then 0 else 1)
        else d.blankLinesAfterDescription, .start⟩ := by
  by_cases htags : d.tags = []
  · rw [h.parse_render_nil htags, htags]
    rfl
  · rw [h.parse_render_of_ne_nil htags, if_neg (by simpa using htags)]

end IsRead

/-- A comment that was read says the same when it is written and read again, and each tag is found
at column 3 of the line that its text is written on, behind the lines that are written before it. -/
theorem parse_render_parse (raw : String) (start : Location) :
    let d := parse raw start
    let d' := parse d.render .start
    d'.description = d.description ∧
      d'.tags = d.tags.mapIdx (fun k t =>
        { t with location := ⟨(d.writtenBefore k).length + 1, 3⟩ }) ∧
      d'.tags.map Tag.keyword = d.tags.map Tag.keyword ∧
      d'.tags.map Tag.valueText = d.tags.map Tag.valueText ∧
      d'.blankLinesAfterDescription =
        (if d.tags.isEmpty then (if d.description.isEmpty then 0 else 1)
        else d.blankLinesAfterDescription) ∧
      ∀ k : Fin d.tags.length, ∃ after, d.render =
        String.ofList (joinLines (d.writtenBefore k ++ (d.tags[k].written ++ after))) := by
  intro d d'
  have he : d' = _ := (isRead_parse raw start).parse_render
  rw [he]
  exact ⟨rfl, rfl, map_relocated Tag.keyword (fun _ _ => rfl) d.tags _,
    map_relocated Tag.valueText (fun _ _ => rfl) d.tags _, rfl, fun k => ⟨_, d.render_eq k⟩⟩

end Comment

end DocCheck
