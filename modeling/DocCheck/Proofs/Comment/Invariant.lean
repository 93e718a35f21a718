import DocCheck.Proofs.Comment.Line

/-!
# What the reader of comments can give

The paragraphs and tags of a comment that was read, whatever its text was: their
lines are trimmed, no line of a paragraph is empty or starts a tag, a tag starts
where its first line does and nowhere else, and ends with a line that is not
empty. All that a tag says follows from its text.

Results:

* `Tag.parse_location`: a tag does not depend on where it is read.
* `IsRead.eq_parts`: what a tag says follows from its keyword and its value.
* `isRead_parse`: a comment that was read has these properties.
-/
namespace DocCheck

/-! ## Tag starts in trimmed texts -/

theorem Text.trimEnd_cons (c : Char) (cs : List Char) :
    trimEnd (c :: cs) = if (trimEnd cs).isEmpty && isBlank c then [] else c :: trimEnd cs := by
  rw [trimEnd, trimEnd, List.reverse_cons, List.dropWhile_append]
  by_cases h : (cs.reverse.dropWhile isBlank).isEmpty = true
  · have hnil : cs.reverse.dropWhile isBlank = [] := List.isEmpty_iff.mp h
    by_cases hb : isBlank c = true <;> simp [hnil, hb]
  · rw [if_neg h, if_neg]
    · simp
    · simpa using fun he => absurd (by simpa using he) h

namespace Keyword

/-- White space at the end of a text does not make it start a tag. -/
theorem startsTag_trimEnd (cs : List Char) : startsTag (Text.trimEnd cs) = startsTag cs := by
  have hat : Text.isBlank '@' = false := by decide
  match cs with
  | [] => rfl
  | [c] =>
    rw [Text.trimEnd_cons]
    split
    · simp [startsTag]
    · rfl
  | c :: d :: r =>
    by_cases hc : c = '@'
    · subst hc
      rw [Text.trimEnd_cons, hat, Bool.and_false, if_neg (by simp), Text.trimEnd_cons]
      split
      · rename_i hb
        simp only [Bool.and_eq_true] at hb
        simp [startsTag, Text.isWord_of_isBlank hb.2]
      · rfl
    · rw [Text.trimEnd_cons]
      split
      · simp [startsTag, hc]
      · simp [startsTag, hc]

theorem startsTag_trim (cs : List Char) :
    startsTag (Text.trim cs) = startsTag (Text.trimStart cs) :=
  startsTag_trimEnd (Text.trimStart cs)

theorem startsTag_ne_nil {cs : List Char} (h : startsTag cs = true) : cs ≠ [] := by
  rintro rfl
  cases h

end Keyword

/-! ## Tags -/

/-- The lines of a tag, as trimmed texts. -/
structure IsTagText (texts : List (List Char)) : Prop where
  isLine : ∀ text ∈ texts, Comment.IsLine text
  /-- The first line starts a tag, and no other does. -/
  starts : ∃ first rest, texts = first :: rest ∧ Keyword.startsTag first = true ∧
    ∀ text ∈ rest, Keyword.startsTag text = false
  /-- The last line is not empty. -/
  last : ∀ text r, texts.reverse = text :: r → text ≠ []

theorem IsTagText.ne_nil {texts : List (List Char)} (h : IsTagText texts) : texts ≠ [] := by
  obtain ⟨first, rest, rfl, -, -⟩ := h.starts
  simp

namespace Tag

/-- The trimmed lines of a tag. -/
def lines (t : Tag) : List (List Char) := Comment.splitLines t.raw.toList

/-- The place of a tag has no part in what it says. -/
theorem parse_location (text : List Char) (l l' : Location) :
    parse text l' = { parse text l with location := l' } := by
  unfold parse
  split <;> rfl

theorem raw_parse (text : List Char) (l : Location) : (parse text l).raw = String.ofList text := by
  unfold parse
  split <;> rfl

/-- The tag is what its text says, and the text is that of a tag. -/
structure IsRead (t : Tag) : Prop where
  isTagText : IsTagText t.lines
  parse : ∀ l, Tag.parse t.raw.toList l = { t with location := l }

theorem isRead_parse {texts : List (List Char)} (h : IsTagText texts) (l : Location) :
    (parse (Comment.joinLines texts) l).IsRead := by
  have hraw : (parse (Comment.joinLines texts) l).raw.toList = Comment.joinLines texts := by
    rw [raw_parse, String.toList_ofList]
  have hlines : (parse (Comment.joinLines texts) l).lines = texts := by
    rw [lines, hraw]
    exact Comment.splitLines_joinLines texts h.ne_nil fun text ht => (h.isLine text ht).newline
  refine ⟨by rw [hlines]; exact h, fun l' => ?_⟩
  rw [hraw]
  exact parse_location _ l l'

/-- A tag that was read has a keyword. -/
theorem IsRead.exists_split {t : Tag} (h : t.IsRead) :
    ∃ written rest, Keyword.split? t.raw.toList = some (written, rest) ∧
      ∀ c ∈ written, Keyword.isKeywordChar c = true := by
  obtain ⟨first, others, hlines, hstarts, -⟩ := h.isTagText.starts
  obtain ⟨c, r, rfl, hc⟩ : ∃ c r, first = '@' :: c :: r ∧ Text.isWord c = true := by
    unfold Keyword.startsTag at hstarts
    split at hstarts
    · exact ⟨_, _, rfl, hstarts⟩
    · cases hstarts
  obtain ⟨r', hraw⟩ : ∃ r', t.raw.toList = '@' :: c :: r' := by
    rw [← Comment.intercalate_splitLines t.raw.toList]
    rw [lines] at hlines
    rw [hlines]
    cases others with
    | nil => exact ⟨r, by simp⟩
    | cons l ls => exact ⟨_, by rw [List.intercalate_cons_cons, List.append_assoc]; rfl⟩
  have hkeyword : Keyword.isKeywordChar c = true := by simp [Keyword.isKeywordChar, hc]
  refine ⟨(c :: r').takeWhile Keyword.isKeywordChar, (c :: r').dropWhile Keyword.isKeywordChar,
    ?_, fun d hd => List.all_eq_true.mp List.all_takeWhile d hd⟩
  rw [hraw]
  simp only [Keyword.split?]
  rw [if_neg (by simp [hkeyword])]

theorem keyword_of_split {t : Tag} {written rest : List Char}
    (h : Keyword.split? t.raw.toList = some (written, rest)) :
    t.keyword = Text.lower (String.ofList written) ∧
      t.valueText = String.ofList (Text.trim rest) := by
  rw [keyword, valueText, h]
  exact ⟨rfl, rfl⟩

/-- What a tag that was read says, from its keyword and its value. -/
theorem IsRead.eq_parts {t : Tag} (h : t.IsRead) :
    let type := typePart t.keyword t.valueText.toList
    let param := paramPart t.keyword type.2
    t.name = Keyword.tagName t.keyword ∧ t.type = type.1 ∧ t.paramName = param.name ∧
      t.optional = param.optional ∧ t.description = nonEmpty? param.rest := by
  obtain ⟨written, rest, hsplit, -⟩ := h.exists_split
  obtain ⟨hkeyword, hvalue⟩ := keyword_of_split hsplit
  have hparse := h.parse t.location
  simp only [Tag.parse, hsplit] at hparse
  obtain ⟨hname, -, -, htype, hparam, hoptional, hdescription⟩ := Tag.mk.inj hparse
  rw [hkeyword, hvalue, String.toList_ofList]
  exact ⟨hname.symm, htype.symm, hparam.symm, hoptional.symm, hdescription.symm⟩

end Tag

namespace Comment

/-- A text without the empty lines at its end. -/
def dropEmpty (texts : List (List Char)) : List (List Char) :=
  (texts.reverse.dropWhile List.isEmpty).reverse

theorem dropEmpty_cons {first : List Char} (hne : first ≠ []) (rest : List (List Char)) :
    dropEmpty (first :: rest) = first :: dropEmpty rest := by
  have hf : first.isEmpty = false := by simpa using hne
  rw [dropEmpty, dropEmpty, List.reverse_cons, List.dropWhile_append]
  split
  · rename_i h
    have hnil : rest.reverse.dropWhile List.isEmpty = [] := List.isEmpty_iff.mp h
    simp [hnil, hf]
  · simp

theorem mem_of_mem_dropEmpty {text : List Char} {texts : List (List Char)}
    (h : text ∈ dropEmpty texts) : text ∈ texts := by
  rw [dropEmpty, List.mem_reverse] at h
  exact List.mem_reverse.mp ((List.dropWhile_sublist _).mem h)

theorem dropEmpty_reverse {texts r : List (List Char)} {text : List Char}
    (h : (dropEmpty texts).reverse = text :: r) : text ≠ [] := by
  rw [dropEmpty, List.reverse_reverse] at h
  have hd := List.head?_dropWhile_not List.isEmpty texts.reverse
  rw [h] at hd
  simpa using hd

/-- The texts of a block: one that starts a tag, and then none that does. -/
structure IsBlock (b : Block) : Prop where
  isLine : ∀ text ∈ b.texts, IsLine text
  starts : ∃ first rest, b.texts = first :: rest ∧ Keyword.startsTag first = true ∧
    ∀ text ∈ rest, Keyword.startsTag text = false

theorem IsBlock.isTagText {b : Block} (h : IsBlock b) : IsTagText (dropEmpty b.texts) := by
  obtain ⟨first, rest, he, hf, hr⟩ := h.starts
  refine ⟨fun text ht => h.isLine text (mem_of_mem_dropEmpty ht), ?_, fun _ _ => dropEmpty_reverse⟩
  rw [he, dropEmpty_cons (Keyword.startsTag_ne_nil hf)]
  exact ⟨first, dropEmpty rest, rfl, hf, fun text ht => hr text (mem_of_mem_dropEmpty ht)⟩

theorem IsBlock.isRead_toTag {b : Block} (h : IsBlock b) : b.toTag.IsRead :=
  Tag.isRead_parse h.isTagText b.location

theorem Line.startsTag_eq (l : Line) : l.startsTag = Keyword.startsTag (Text.trim l.text) :=
  (Keyword.startsTag_trim l.text).symm

/-- The part before the first tag has no line that starts a tag, and what follows is cut into
blocks. -/
theorem isBlock_blocks (start : Location) (index : Nat) {ls : List Line}
    (h : ∀ l ∈ ls, IsLine (Text.trim l.text)) :
    (∀ text ∈ (blocks start index ls).1, IsLine text ∧ Keyword.startsTag text = false) ∧
      ∀ b ∈ (blocks start index ls).2, IsBlock b := by
  induction ls generalizing index with
  | nil => simp [blocks]
  | cons l ls ih =>
    obtain ⟨htexts, hblocks⟩ := ih (index + 1) fun m hm => h m (by simp [hm])
    have hl := h l (by simp)
    simp only [blocks]
    split
    · rename_i hs
      rw [Line.startsTag_eq] at hs
      refine ⟨by simp, fun b hb => ?_⟩
      rcases List.mem_cons.mp hb with rfl | hb
      · refine ⟨?_, _, _, rfl, hs, fun text ht => (htexts text ht).2⟩
        simpa using ⟨hl, fun text ht => (htexts text ht).1⟩
      · exact hblocks b hb
    · rename_i hs
      rw [Line.startsTag_eq, Bool.not_eq_true] at hs
      refine ⟨fun text ht => ?_, hblocks⟩
      rcases List.mem_cons.mp ht with rfl | ht
      · exact ⟨hl, hs⟩
      · exact htexts text ht

/-! ## Paragraphs -/

theorem mem_paragraphsFrom {P : List Char → Prop} {run texts : List (List Char)}
    (hrun : ∀ text ∈ run, P text ∧ text ≠ []) (h : ∀ text ∈ texts, P text) :
    ∀ p ∈ paragraphsFrom run texts, p ≠ [] ∧ ∀ text ∈ p, P text ∧ text ≠ [] := by
  have hreverse : ∀ {run : List (List Char)}, (∀ text ∈ run, P text ∧ text ≠ []) →
      ¬ run.isEmpty = true → run.reverse ≠ [] ∧ ∀ text ∈ run.reverse, P text ∧ text ≠ [] := by
    intro run hrun hne
    exact ⟨by simpa using hne, fun text ht => hrun text (List.mem_reverse.mp ht)⟩
  induction texts generalizing run with
  | nil =>
    intro p hp
    rw [paragraphsFrom] at hp
    split at hp
    · cases hp
    · rename_i hne
      rw [List.mem_singleton.mp hp]
      exact hreverse hrun hne
  | cons text texts ih =>
    have htexts : ∀ t ∈ texts, P t := fun t ht => h t (by simp [ht])
    intro p hp
    rw [paragraphsFrom] at hp
    split at hp
    · split at hp
      · exact ih (by simp) htexts p hp
      · rename_i hne
        rcases List.mem_cons.mp hp with rfl | hp
        · exact hreverse hrun hne
        · exact ih (by simp) htexts p hp
    · rename_i he
      refine ih ?_ htexts p hp
      intro t ht
      rcases List.mem_cons.mp ht with rfl | ht
      · exact ⟨h t (by simp), by simpa using he⟩
      · exact hrun t ht

/-- The lines of a paragraph: trimmed texts none of which is empty or starts a tag. -/
structure IsParagraph (texts : List (List Char)) : Prop where
  ne_nil : texts ≠ []
  isLine : ∀ text ∈ texts, IsLine text
  plain : ∀ text ∈ texts, Keyword.startsTag text = false
  full : ∀ text ∈ texts, text ≠ []

/-- What holds of every comment that was read. -/
structure IsRead (d : Comment) : Prop where
  description : ∀ p ∈ d.description, IsParagraph (splitLines p.toList)
  tags : ∀ t ∈ d.tags, t.IsRead
  blank : d.description = [] → d.blankLinesAfterDescription = 0

/-- Every comment that was read is in that form. -/
theorem isRead_parse (raw : String) (start : Location) : (parse raw start).IsRead := by
  have hlines : ∀ l ∈ contentLines raw.toList, IsLine (Text.trim l.text) :=
    fun l hl => isLine_contentLines hl
  refine ⟨?_, ?_, ?_⟩
  · intro p hp
    obtain ⟨texts, ht, rfl⟩ := List.mem_map.mp hp
    have hbefore : ∀ text ∈ ((contentLines raw.toList).takeWhile fun l => !l.startsTag).map
        fun l => Text.trim l.text, IsLine text ∧ Keyword.startsTag text = false := by
      intro text hm
      obtain ⟨l, hl, rfl⟩ := List.mem_map.mp hm
      have hs := List.all_eq_true.mp List.all_takeWhile l hl
      rw [Line.startsTag_eq, Bool.not_eq_true'] at hs
      exact ⟨hlines l ((List.takeWhile_sublist _).mem hl), hs⟩
    obtain ⟨hne, hall⟩ := mem_paragraphsFrom (by simp) hbefore texts ht
    rw [String.toList_ofList, splitLines_joinLines texts hne fun t h => (hall t h).1.1.newline]
    exact ⟨hne, fun t h => (hall t h).1.1, fun t h => (hall t h).1.2, fun t h => (hall t h).2⟩
  · intro t ht
    obtain ⟨b, hb, rfl⟩ := List.mem_map.mp ht
    exact ((isBlock_blocks start 0 hlines).2 b hb).isRead_toTag
  · intro hd
    simp only [parse] at hd ⊢
    rw [if_pos (by rw [hd]; rfl)]

/-- A comment that was read has no empty paragraph, so its description is empty only if it has
no paragraph. -/
theorem IsRead.isEmpty_descriptionText {d : Comment} (h : d.IsRead) :
    d.descriptionText.isEmpty = d.description.isEmpty := by
  rw [descriptionText]
  cases hd : d.description with
  | nil => rfl
  | cons p ps =>
    have hp : p ≠ "" := by
      rintro rfl
      have hfull := (h.description "" (by rw [hd]; exact List.mem_cons_self)).full
      exact hfull [] List.mem_cons_self rfl
    rw [List.isEmpty_cons, Bool.eq_false_iff, ne_eq, String.isEmpty_iff, ← String.toList_inj,
      String.toList_intercalate]
    cases ps <;> simp [hp]

end Comment

end DocCheck
