import Mathlib.Data.List.Forall2
import DocCheck.Proofs.Comment.Location
import DocCheck.Proofs.Comment.ParamTag
import DocCheck.Proofs.Comment.TagParts
import DocCheck.Proofs.Comment.TagWord
import DocCheck.Proofs.Text.LetterCase

/-!
# Keywords in another spelling

The keywords of a comment's tags may be spelled in another way: in other letter case,
or one of the words for a parameter in place of another. The lines are then cut at the
same places, and each tag is read as before: its value is the same text, and the parts
of the value depend on no more of the keyword than what both spellings share.

Results:

* `Keyword.IsRespelling`: what two spellings of a keyword have to share.
* `Respelled`: comments that differ in the spelling of tag keywords.
* `contentLines_alike`, `blocks_alike`, `toTag_alike`: line by line, block by block and tag by tag
  the comments are alike.
* `parse_alike`: what is read of the comments differs in keywords only.
-/
namespace DocCheck

/-! ## Spellings of keywords -/

namespace Keyword

/-- The words are made of the same letters, in upper or lower case. -/
def SameLetters (written written' : List Char) : Prop :=
  written.map Char.toLower = written'.map Char.toLower

def BothParam (written written' : List Char) : Prop :=
  IsParamWord (String.ofList written) ∧ IsParamWord (String.ofList written')

/-- The keywords are equal, or both introduce a parameter. -/
def Alias (keyword keyword' : String) : Prop :=
  keyword = keyword' ∨ isParam keyword = true ∧ isParam keyword' = true

/-- Words that are spelled in two ways make tags, and what is read of them is equal or introduces a
parameter. -/
structure IsRespelling (same : List Char → List Char → Prop) (alike : String → String → Prop) :
    Prop where
  isTagWord : ∀ {written written'}, same written written' → IsTagWord written → IsTagWord written'
  lower : ∀ {written written'}, same written written' →
    alike (Text.lower (String.ofList written)) (Text.lower (String.ofList written'))
  refl : ∀ keyword, alike keyword keyword
  isAlias : ∀ {keyword keyword'}, alike keyword keyword' → Alias keyword keyword'

theorem SameLetters.isTagWord {written written' : List Char} (h : SameLetters written written')
    (hw : IsTagWord written) : IsTagWord written' := by
  obtain ⟨c, r, rfl, hc⟩ := hw.starts
  obtain ⟨d, r', rfl, hd, -⟩ := List.map_eq_cons_iff.mp (Eq.symm h)
  refine ⟨⟨d, r', rfl, by rw [Text.isWord_congr hd, hc]⟩, fun e he => ?_⟩
  -- each character has its letter in the other word
  obtain ⟨e', he', heq⟩ : ∃ e' ∈ c :: r, e'.toLower = e.toLower := by
    have hmem : e.toLower ∈ (c :: r).map Char.toLower := by
      rw [h]
      exact List.mem_map_of_mem he
    exact List.mem_map.mp hmem
  obtain rfl | ⟨-, hletter⟩ := Text.eq_or_isAlpha heq
  · exact hw.chars _ he'
  · rw [isKeywordChar, Text.isWord_of_isAlphanum e ((Bool.or_eq_true _ _).mpr (.inl hletter)),
      Bool.true_or]

theorem IsParamWord.isTagWord {written : List Char} (h : IsParamWord (String.ofList written)) :
    IsTagWord written := by
  have hne : written ≠ [] := by simpa using h.toList_ne_nil
  obtain ⟨c, r, rfl⟩ := List.exists_cons_of_ne_nil hne
  have hc : c.isAlphanum = true := h.isAlphanum (by simp)
  exact ⟨⟨c, r, rfl, Text.isWord_of_isAlphanum c hc⟩, by simpa using h.isKeywordChar⟩

theorem isRespelling_letters : IsRespelling SameLetters Eq where
  isTagWord := SameLetters.isTagWord
  lower := Text.lower_congr
  refl := fun _ => rfl
  isAlias := .inl

theorem isRespelling_param : IsRespelling BothParam Alias where
  isTagWord := fun h _ => h.2.isTagWord
  lower := fun h => .inr ⟨by rw [h.1.lower_eq, h.1.isParam], by rw [h.2.lower_eq, h.2.isParam]⟩
  refl := fun _ => .inl rfl
  isAlias := id

section

variable {keyword keyword' : String} (h : Alias keyword keyword')
include h

theorem Alias.isParam_eq : isParam keyword = isParam keyword' := by
  obtain rfl | ⟨hp, hp'⟩ := h
  · rfl
  · rw [hp, hp']

theorem Alias.takesType_eq : takesType keyword = takesType keyword' := by
  obtain rfl | ⟨hp, hp'⟩ := h
  · rfl
  · rw [takesType_of_isParam hp, takesType_of_isParam hp']

theorem Alias.tagName_eq : tagName keyword = tagName keyword' := by
  obtain rfl | ⟨hp, hp'⟩ := h
  · rfl
  · rw [tagName_of_isParam hp, tagName_of_isParam hp']

end

theorem IsTagWord.split_eq {word rest : List Char} (h : IsTagWord word)
    (hrest : ∀ c r, rest = c :: r → isKeywordChar c = false) :
    split? ('@' :: (word ++ rest)) = some (word, rest) := by
  obtain ⟨c, r, rfl, -⟩ := h.starts
  exact split_append (by simp) h.chars hrest

end Keyword

open Keyword (IsTagWord IsRespelling)

variable {same : List Char → List Char → Prop} {alike : String → String → Prop}

namespace Comment

/-- One line is the other one with another spelling of the keyword that stands behind the at sign at
a column. -/
def RespelledAt (same : List Char → List Char → Prop) (column : Int) (line line' : List Char) :
    Prop :=
  ∃ before written written' rest, line = before ++ '@' :: (written ++ rest) ∧
    line' = before ++ '@' :: (written' ++ rest) ∧ (before.length : Int) = column ∧
    Keyword.split? ('@' :: (written ++ rest)) = some (written, rest) ∧ same written written'

/-- One comment is the other one with other spellings of the keywords of some of its tags. -/
structure Respelled (same : List Char → List Char → Prop) (raw raw' : String) : Prop where
  length : (splitLines raw'.toList).length = (splitLines raw.toList).length
  lines : ∀ (i : Nat) (line line' : List Char), (splitLines raw.toList)[i]? = some line →
    (splitLines raw'.toList)[i]? = some line' →
    line' = line ∨ ∃ t ∈ (parse raw .start).tags,
      t.location.line = Location.start.line + i ∧ RespelledAt same t.location.column line line'

/-! ## Lines -/

/-- The texts are equal, or both start with an at sign and a keyword, in two spellings. -/
inductive Spelled (same : List Char → List Char → Prop) : List Char → List Char → Prop
  | refl (text : List Char) : Spelled same text text
  | word {written written' rest : List Char} (hw : IsTagWord written) (h : same written written')
    (hrest : ∀ c r, rest = c :: r → Keyword.isKeywordChar c = false) :
    Spelled same ('@' :: (written ++ rest)) ('@' :: (written' ++ rest))

/-- The texts of the lines start at one column, and are spelled alike. -/
structure Line.Alike (same : List Char → List Char → Prop) (l l' : Line) : Prop where
  column : l.textColumn = l'.textColumn
  text : Spelled same (Text.trim l.text) (Text.trim l'.text)

theorem Line.Alike.refl (l : Line) : Line.Alike same l l := ⟨rfl, .refl _⟩

theorem Spelled.startsTag_eq (hr : IsRespelling same alike) {text text' : List Char}
    (h : Spelled same text text') : Keyword.startsTag text = Keyword.startsTag text' := by
  cases h with
  | refl => rfl
  | word hw h _ => rw [hw.startsTag, (hr.isTagWord h hw).startsTag]

theorem Spelled.eq_of_not_startsTag {text text' : List Char} (h : Spelled same text text')
    (hs : ¬ Keyword.startsTag text = true) : text = text' := by
  cases h with
  | refl => rfl
  | word hw _ _ => exact absurd (hw.startsTag _) hs

/-- Nothing that is cut off in front of a text that starts a tag is more than white space. -/
theorem trim_word_line {lead word rest : List Char} (hlead : ∀ c ∈ lead, Text.isBlank c = true)
    (h : IsTagWord word) :
    Text.trim (lead ++ '@' :: (word ++ rest)) = '@' :: (word ++ Text.trimEnd rest) := by
  rw [Text.trim_blanks_append hlead, Text.trim_cons (by decide)]
  exact trimEnd_word h [] rest

/-- A line that starts a tag at a column is read alike in both spellings of the keyword there. -/
theorem alike_of_respelledAt (hr : IsRespelling same alike) {isFirst isLast : Bool}
    {line line' : List Char} {l : Line} (hl : lineOf isFirst isLast line = l)
    (hs : l.startsTag = true) (h : RespelledAt same l.textColumn line line') :
    Line.Alike same l (lineOf isFirst isLast line') := by
  obtain ⟨before, written, written', rest, rfl, rfl, hcolumn, hsplit, hsame⟩ := h
  obtain ⟨-, -, hchars, hrest⟩ := Keyword.eq_of_split hsplit
  have hcolumn : before.length = l.textColumn := Int.ofNat.inj hcolumn
  -- the tag that starts there has the whole keyword
  have hword : IsTagWord written := by
    have hprefix := (at_lineOf hl hs).2.2
    rw [List.drop_left' hcolumn] at hprefix
    rw [Line.startsTag_eq] at hs
    unfold Keyword.startsTag at hs
    split at hs
    · rename_i c r hat
      rw [hat] at hprefix
      obtain ⟨after, hafter⟩ := (List.cons_prefix_cons.mp hprefix).2
      have hc : Keyword.isKeywordChar c = true := by simp [Keyword.isKeywordChar, hs]
      cases written with
      | nil =>
        rw [hrest c (r ++ after) hafter.symm] at hc
        cases hc
      | cons d w =>
        obtain ⟨rfl, -⟩ := List.cons.inj hafter
        exact ⟨⟨c, w, rfl, hs⟩, hchars⟩
    · cases hs
  have hword' := hr.isTagWord hsame hword
  obtain ⟨m, hm⟩ | ⟨lead, tail, column, ⟨after, rfl⟩, hlength, hm⟩ :=
    lineOf_word isFirst isLast before rest
  · rw [hm written' hword', ← hl, hm written hword]
    exact .refl m
  · obtain rfl : l = _ := hl.symm.trans (hm written hword)
    rw [hm written' hword']
    have hlead : ∀ c ∈ lead, Text.isBlank c = true := by
      have hlength : (lead.takeWhile Text.isBlank).length = lead.length := by
        rw [Line.textColumn, takeWhile_at] at hcolumn
        dsimp only at hcolumn
        omega
      rw [← (List.takeWhile_prefix _).eq_of_length hlength]
      exact fun c hc => Text.isBlank_of_mem_takeWhile hc
    refine ⟨by rw [Line.textColumn, Line.textColumn, takeWhile_at, takeWhile_at], ?_⟩
    rw [trim_word_line hlead hword, trim_word_line hlead hword']
    refine .word hword hsame fun c r hc => ?_
    obtain ⟨blanks, hblanks⟩ := Text.trimEnd_prefix tail
    rw [hc] at hblanks
    exact hrest c (r ++ blanks ++ after) (by rw [← hblanks]; simp)

theorem length_contentLines (raw : List Char) :
    (contentLines raw).length = (splitLines raw).length := by
  have hlines : contentLines raw = (splitLines raw).mapIdx fun i =>
      lineOf (decide (i = 0)) (decide (i + 1 = (splitLines raw).length)) := by
    refine List.ext_getElem? fun i => ?_
    rw [getElem?_contentLines, List.getElem?_mapIdx]
  rw [hlines, List.length_mapIdx]

/-- The lines of a respelled comment are alike, one by one. -/
theorem contentLines_alike (hr : IsRespelling same alike) {raw raw' : String}
    (h : Respelled same raw raw') :
    List.Forall₂ (Line.Alike same) (contentLines raw.toList) (contentLines raw'.toList) := by
  have halike : ∀ (i : Nat) (l l' : Line), (contentLines raw.toList)[i]? = some l →
      (contentLines raw'.toList)[i]? = some l' → Line.Alike same l l' := by
    intro i l l' hl hl'
    have hcontent := hl
    rw [getElem?_contentLines, Option.map_eq_some_iff] at hl hl'
    obtain ⟨line, hline, hl⟩ := hl
    obtain ⟨line', hline', rfl⟩ := hl'
    rw [h.length]
    obtain rfl | ⟨t, ht, hplace, hat⟩ := h.lines i line line' hline hline'
    · rw [hl]
      exact .refl l
    · -- the tag is that of this line
      obtain ⟨b, hb, rfl⟩ := List.mem_map.mp ht
      obtain ⟨j, m, rest, hm, hs, rfl⟩ := exists_of_mem_blocks hb
      rw [location_toTag, tagLocation_eq] at hplace hat
      obtain rfl : j = i := by
        dsimp only at hplace
        omega
      obtain rfl : m = l := Option.some.inj (hm.symm.trans hcontent)
      refine alike_of_respelledAt hr hl hs ?_
      simpa [Location.start] using hat
  refine List.forall₂_of_length_eq_of_get ?_ fun i hi hi' => halike i _ _ (by simp) (by simp)
  rw [length_contentLines, length_contentLines, h.length]

/-! ## Blocks -/

/-- The blocks start at one place with the spellings of one text, and go on alike. -/
inductive Block.Alike (same : List Char → List Char → Prop) : Block → Block → Prop
  | mk (location : Location) {first first' : List Char} (rest : List (List Char))
    (h : Spelled same first first') (hs : Keyword.startsTag first = true) :
    Block.Alike same ⟨location, first :: rest⟩ ⟨location, first' :: rest⟩

theorem blocks_alike (hr : IsRespelling same alike) {ls ls' : List Line}
    (h : List.Forall₂ (Line.Alike same) ls ls') (start : Location) (index : Nat) :
    (blocks start index ls).1 = (blocks start index ls').1 ∧
      List.Forall₂ (Block.Alike same) (blocks start index ls).2 (blocks start index ls').2 := by
  induction h generalizing index with
  | nil => exact ⟨rfl, .nil⟩
  | @cons l l' ls ls' hl _ ih =>
    obtain ⟨htexts, hblocks⟩ := ih (index + 1)
    have hstarts : l.startsTag = l'.startsTag := by
      rw [Line.startsTag_eq, Line.startsTag_eq, hl.text.startsTag_eq hr]
    have hplace : tagLocation start index l = tagLocation start index l' := by
      rw [tagLocation_eq, tagLocation_eq, hl.column]
    simp only [blocks, hstarts, hplace, htexts]
    split
    · rename_i hs
      rw [← hstarts, Line.startsTag_eq] at hs
      exact ⟨rfl, .cons (.mk _ _ hl.text hs) hblocks⟩
    · rename_i hs
      rw [← hstarts, Line.startsTag_eq] at hs
      exact ⟨by rw [hl.text.eq_of_not_startsTag hs], hblocks⟩

/-- The lines before the first tag are the same. -/
theorem textsOf_before_alike (hr : IsRespelling same alike) {ls ls' : List Line}
    (h : List.Forall₂ (Line.Alike same) ls ls') :
    textsOf (ls.takeWhile fun l => !l.startsTag) =
      textsOf (ls'.takeWhile fun l => !l.startsTag) := by
  induction h with
  | nil => rfl
  | @cons l l' ls ls' hl _ ih =>
    have hstarts : l.startsTag = l'.startsTag := by
      rw [Line.startsTag_eq, Line.startsTag_eq, hl.text.startsTag_eq hr]
    rw [List.takeWhile_cons, List.takeWhile_cons, hstarts]
    split
    · rename_i hs
      rw [← hstarts, Line.startsTag_eq, Bool.not_eq_true', ← Bool.not_eq_true] at hs
      rw [textsOf_cons, textsOf_cons, ih, hl.text.eq_of_not_startsTag hs]
    · rfl

/-! ## Tags -/

theorem joinLines_append_left (cs line : List Char) (lines : List (List Char)) :
    joinLines ((cs ++ line) :: lines) = cs ++ joinLines (line :: lines) := by
  cases lines <;> simp [joinLines, List.intercalate_cons_cons]

/-- The line feed behind a first line is no part of a keyword. -/
theorem Spelled.joinLines {first first' : List Char} (h : Spelled same first first')
    (rest : List (List Char)) :
    Spelled same (joinLines (first :: rest)) (joinLines (first' :: rest)) := by
  cases h with
  | refl => exact .refl _
  | @word written written' tail hw h htail =>
    rw [joinLines_cons, joinLines_cons, joinLines_append_left, joinLines_append_left]
    refine .word hw h fun c r hc => ?_
    cases tail with
    | cons d s =>
      rw [joinLines_cons] at hc
      obtain ⟨rfl, -⟩ := List.cons.inj hc
      exact htail _ s rfl
    | nil =>
      cases rest with
      | nil => cases hc
      | cons line lines =>
        rw [Comment.joinLines, List.intercalate_cons_cons] at hc
        obtain ⟨rfl, -⟩ := List.cons.inj hc
        decide

end Comment

/-- The tags say the same but for their keywords, which are alike. -/
structure Tag.Alike (alike : String → String → Prop) (t t' : Tag) : Prop where
  name : t.name = t'.name
  location : t.location = t'.location
  type : t.type = t'.type
  paramName : t.paramName = t'.paramName
  optional : t.optional = t'.optional
  description : t.description = t'.description
  valueText : t.valueText = t'.valueText
  keyword : alike t.keyword t'.keyword
  /-- Only the keywords of parameters are other words. -/
  ofName : t.name ≠ "param" → t.keyword = t'.keyword

theorem Tag.Alike.refl (hr : IsRespelling same alike) (t : Tag) : Tag.Alike alike t t :=
  ⟨rfl, rfl, rfl, rfl, rfl, rfl, rfl, hr.refl _, fun _ => rfl⟩

/-- Tags whose texts are spelled alike are read alike. -/
theorem Tag.alike_parse (hr : IsRespelling same alike) {text text' : List Char}
    (h : Comment.Spelled same text text') (location : Location) :
    Tag.Alike alike (parse text location) (parse text' location) := by
  cases h with
  | refl => exact .refl hr _
  | @word written written' rest hw h hrest =>
    have hsplit := hw.split_eq hrest
    have hsplit' := (hr.isTagWord h hw).split_eq hrest
    have halias := hr.isAlias (hr.lower h)
    have hread : ∀ {word : List Char} {t : Tag},
        Keyword.split? ('@' :: (word ++ rest)) = some (word, rest) →
        t = parse ('@' :: (word ++ rest)) location →
        t.keyword = Text.lower (String.ofList word) ∧
          t.valueText = String.ofList (Text.trim rest) := by
      rintro word t hs rfl
      exact keyword_of_split (by rw [raw_parse, String.toList_ofList, hs])
    obtain ⟨hkeyword, hvalue⟩ := hread hsplit rfl
    obtain ⟨hkeyword', hvalue'⟩ := hread hsplit' rfl
    have htype : ∀ value, typePart (Text.lower (String.ofList written)) value =
        typePart (Text.lower (String.ofList written')) value := by
      intro value
      rw [typePart, typePart, halias.takesType_eq]
    have hparam : ∀ value, paramPart (Text.lower (String.ofList written)) value =
        paramPart (Text.lower (String.ofList written')) value := by
      intro value
      unfold paramPart
      rw [halias.isParam_eq]
    have hname : (parse ('@' :: (written ++ rest)) location).name =
        Keyword.tagName (Text.lower (String.ofList written)) := by
      simp only [parse, hsplit]
    refine ⟨?_, ?_, ?_, ?_, ?_, ?_, hvalue.trans hvalue'.symm, ?_, fun hne => ?_⟩
    · simp only [parse, hsplit, hsplit', halias.tagName_eq]
    · simp only [parse, hsplit, hsplit']
    · simp only [parse, hsplit, hsplit', htype]
    · simp only [parse, hsplit, hsplit', htype, hparam]
    · simp only [parse, hsplit, hsplit', htype, hparam]
    · simp only [parse, hsplit, hsplit', htype, hparam]
    · rw [hkeyword, hkeyword']
      exact hr.lower h
    · rw [hkeyword, hkeyword']
      obtain heq | ⟨hp, -⟩ := halias
      · exact heq
      · exact absurd (hname.trans (Keyword.tagName_of_isParam hp)) hne

namespace Comment

theorem toTag_alike (hr : IsRespelling same alike) {b b' : Block} (h : Block.Alike same b b') :
    Tag.Alike alike b.toTag b'.toTag := by
  cases h with
  | mk location rest h hs =>
    have hne := Keyword.startsTag_ne_nil hs
    have hne' := Keyword.startsTag_ne_nil ((h.startsTag_eq hr).symm.trans hs)
    have htag : ∀ {first : List Char}, first ≠ [] → (Block.mk location (first :: rest)).toTag =
        Tag.parse (Comment.joinLines (first :: dropEmpty rest)) location := by
      intro first hne
      rw [← dropEmpty_cons hne]
      rfl
    rw [htag hne, htag hne']
    exact Tag.alike_parse hr (h.joinLines _) location

/-- The comments say the same but for the keywords of their tags, which are alike. -/
structure Alike (alike : String → String → Prop) (c c' : Comment) : Prop where
  description : c.description = c'.description
  blanks : c.blankLinesAfterDescription = c'.blankLinesAfterDescription
  location : c.location = c'.location
  tags : List.Forall₂ (Tag.Alike alike) c.tags c'.tags

/-- What is read of a respelled comment differs in keywords only. -/
theorem parse_alike (hr : IsRespelling same alike) {raw raw' : String}
    (h : Respelled same raw raw') (start : Location) :
    (parse raw start).Alike alike (parse raw' start) := by
  have hlines := contentLines_alike hr h
  obtain ⟨hdescription, hblanks⟩ :=
    description_eq_of_textsOf start (textsOf_before_alike hr hlines)
  have hblocks := (blocks_alike hr hlines start 0).2
  exact ⟨hdescription, hblanks, rfl,
    List.forall₂_map_left_iff.mpr (List.forall₂_map_right_iff.mpr
      (hblocks.imp fun _ _ => toTag_alike hr))⟩

end Comment

end DocCheck
