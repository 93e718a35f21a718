import Mathlib.Data.List.Basic
import DocCheck.Proofs.Comment.Invariant

/-!
# Where tags are

The column of a line is the length of what was taken from its start: the opening
delimiter or the decoration, with the white space around them. The column of a
tag adds the white space in front of its at sign, and so points into the line
as it was written, however the line was cut.

Results:

* `line_blocks`: the blocks start on the lines that start tags, one block on each.
* `exists_of_mem_blocks`: a block starts on a line that starts a tag, with its text.
* `tags_located`: each line that starts a tag gives one tag, and the place of a tag is that
  of its at sign.
-/
namespace DocCheck.Comment

/-! ## Places of blocks -/

theorem line_blocks (start : Location) (index : Nat) (ls : List Line) :
    (blocks start index ls).2.map (fun b => b.location.line) =
      (ls.findIdxs Line.startsTag index).map fun i : Nat => start.line + (i : Int) := by
  induction ls generalizing index with
  | nil => rfl
  | cons l ls ih =>
    simp only [blocks, List.findIdxs_cons]
    split
    · simp [ih, tagLocation]
    · exact ih (index + 1)

/-- A block starts on a line that starts a tag, with its text. -/
theorem exists_of_mem_blocks {start : Location} {index : Nat} {ls : List Line} {b : Block}
    (h : b ∈ (blocks start index ls).2) :
    ∃ i l rest, ls[i]? = some l ∧ l.startsTag = true ∧
      b = ⟨tagLocation start (index + i) l, Text.trim l.text :: rest⟩ := by
  induction ls generalizing index with
  | nil => simp [blocks] at h
  | cons l ls ih =>
    have hlater : b ∈ (blocks start (index + 1) ls).2 → ∃ i m rest, (l :: ls)[i]? = some m ∧
        m.startsTag = true ∧ b = ⟨tagLocation start (index + i) m, Text.trim m.text :: rest⟩ := by
      intro hb
      obtain ⟨i, m, rest, hm, hs, rfl⟩ := ih hb
      exact ⟨i + 1, m, rest, by simpa using hm, hs, by rw [Nat.add_assoc, Nat.add_comm 1]⟩
    simp only [blocks] at h
    split at h
    · rename_i hs
      rcases List.mem_cons.mp h with rfl | hb
      · exact ⟨0, l, _, rfl, hs, rfl⟩
      · exact hlater hb
    · exact hlater h

/-! ## Places of tags -/

theorem location_toTag (b : Block) : b.toTag.location = b.location := by
  rw [Block.toTag, Tag.parse_location _ b.location b.location]

theorem lines_toTag {b : Block} (h : IsBlock b) : b.toTag.lines = dropEmpty b.texts := by
  have ht := h.isTagText
  rw [Tag.lines, Block.toTag, Tag.raw_parse, String.toList_ofList]
  exact splitLines_joinLines _ ht.ne_nil fun text hm => (ht.isLine text hm).newline

/-- The column at which the text of a line starts behind its white space. -/
def Line.textColumn (l : Line) : Nat := l.column + (l.text.takeWhile Text.isBlank).length

theorem tagLocation_eq (start : Location) (index : Nat) (l : Line) :
    tagLocation start index l =
      ⟨start.line + index, (if index = 0 then start.column else 0) + l.textColumn⟩ := by
  rw [tagLocation, Line.textColumn]
  split <;> simp

/-- The at sign of a tag in the line that the tag starts on. -/
theorem at_lineOf {isFirst isLast : Bool} {cs : List Char} {l : Line}
    (he : lineOf isFirst isLast cs = l) (h : l.startsTag = true) :
    cs[l.textColumn]? = some '@' ∧ IsLead isFirst (cs.take l.textColumn) ∧
      Text.trim l.text <+: cs.drop l.textColumn := by
  obtain ⟨before, after, hline, hlen, hlead⟩ := lineOf_eq_append isFirst isLast cs
  rw [he] at hline hlen
  have hl : l.text = l.text.takeWhile Text.isBlank ++ Text.trimStart l.text :=
    (List.takeWhile_append_dropWhile).symm
  have hcut : cs = before ++ l.text.takeWhile Text.isBlank ++
      (Text.trimStart l.text ++ after) := by
    rw [hline]
    conv => lhs; rw [hl]
    simp
  have hc : (before ++ l.text.takeWhile Text.isBlank).length = l.textColumn := by
    rw [List.length_append, hlen, Line.textColumn]
  obtain ⟨d, r, hat⟩ : ∃ d r, Text.trimStart l.text = '@' :: d :: r := by
    unfold Line.startsTag Keyword.startsTag at h
    split at h
    · rename_i d r he
      exact ⟨d, r, he⟩
    · cases h
  refine ⟨?_, ?_, ?_⟩
  · rw [hcut, ← hc, List.getElem?_append_right (Nat.le_refl _), hat, Nat.sub_self]
    rfl
  · rw [hcut, List.take_left' hc]
    exact hlead.append fun c hm => Text.isBlank_of_mem_takeWhile hm
  · rw [hcut, List.drop_left' hc]
    exact (Text.trimEnd_prefix _).trans (List.prefix_append _ _)

/-- Every line that starts a tag gives exactly one tag, in order, and the place of a tag is that
of its at sign in the text: in front of it there is nothing but white space, a star or, on the
first line, the opening delimiter, and the tag's first line is what is written there. Only on
the first line the column counts from that of the comment. -/
theorem tags_located (raw : String) (start : Location) :
    (parse raw start).tags.map (fun t => t.location.line) =
        ((contentLines raw.toList).findIdxs fun l => Keyword.startsTag (Text.trim l.text)).map
          (fun i : Nat => start.line + (i : Int)) ∧
      (parse raw start).tags.Pairwise (fun t u => t.location.line < u.location.line) ∧
      ∀ t ∈ (parse raw start).tags, ∃ (i c : Nat) (text : List Char),
        (splitLines raw.toList)[i]? = some text ∧
        t.location = ⟨start.line + i, (if i = 0 then start.column else 0) + c⟩ ∧
        text[c]? = some '@' ∧ IsLead (decide (i = 0)) (text.take c) ∧
        ∃ first, t.lines.head? = some first ∧ first <+: text.drop c := by
  have hstarts : Line.startsTag = fun l => Keyword.startsTag (Text.trim l.text) :=
    funext Line.startsTag_eq
  have hlines : (parse raw start).tags.map (fun t => t.location.line) =
      ((contentLines raw.toList).findIdxs Line.startsTag).map
        fun i : Nat => start.line + (i : Int) := by
    rw [← line_blocks start 0, parse, List.map_map]
    exact List.map_congr_left fun b _ => congrArg Location.line (location_toTag b)
  refine ⟨by rw [hlines, hstarts], ?_, ?_⟩
  · have hsorted : (((contentLines raw.toList).findIdxs Line.startsTag).map
        fun i : Nat => start.line + (i : Int)).Pairwise (· < ·) :=
      List.pairwise_map.mpr (List.pairwise_findIdxs.imp fun h => by omega)
    rw [← hlines] at hsorted
    exact List.pairwise_map.mp hsorted
  · intro t ht
    obtain ⟨b, hb, rfl⟩ := List.mem_map.mp ht
    have hblock := (isBlock_blocks start 0 fun l hl => isLine_contentLines hl).2 b hb
    obtain ⟨i, l, rest, hl, hs, rfl⟩ := exists_of_mem_blocks hb
    rw [getElem?_contentLines, Option.map_eq_some_iff] at hl
    obtain ⟨text, hline, he⟩ := hl
    obtain ⟨hat, hlead, hfirst⟩ := at_lineOf he hs
    refine ⟨i, l.textColumn, text, hline, ?_, hat, hlead, ?_⟩
    · rw [location_toTag, tagLocation_eq, Nat.zero_add]
    · rw [Line.startsTag_eq] at hs
      rw [lines_toTag hblock, dropEmpty_cons (Keyword.startsTag_ne_nil hs)]
      exact ⟨_, rfl, hfirst⟩

/-- A tag behind the opening delimiter and one behind a star; the comment starts at column 4. -/
example : (parse "/** @a\n *  @b x */" ⟨5, 4⟩).tags.map Tag.location = [⟨5, 8⟩, ⟨6, 4⟩] := by
  decide +kernel

end DocCheck.Comment
