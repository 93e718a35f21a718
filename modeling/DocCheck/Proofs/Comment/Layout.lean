import Mathlib.Data.List.Forall2
import DocCheck.Proofs.Comment.Location
import DocCheck.Proofs.Comment.NormalForm

/-!
# Layouts of comments

The same lines can be laid out in many ways: with a star before a line or with
white space alone, with white space at the end, and with either kind of line
break, chosen line by line. A layout changes where the text of a line starts, and
nothing else that is read: every later step trims its lines, and the star that is
taken away is at most one, and none that belongs to a closing delimiter.

Results:

* `trim_lineOf`: the trimmed text of a line is its trimmed form without the decorating star.
* `textsOf_contentLines_write`: the trimmed lines of a layout are those that it was made for.
* `parse_eq_of_textsOf`: only columns depend on more than the trimmed lines.
* `layout_independent`: two layouts of the same lines are read alike but for columns.
-/
namespace DocCheck

namespace Comment

/-! ## Lines without their decoration -/

/-- A trimmed line without the star that decorates it. -/
def withoutStar : List Char → List Char
  | '*' :: '/' :: r => '*' :: '/' :: r
  | '*' :: r => Text.trim r
  | cs => cs

theorem withoutStar_star {cs : List Char} (h : cs.head? ≠ some '/') :
    withoutStar ('*' :: cs) = Text.trim cs := by
  rw [withoutStar]
  rintro r rfl
  exact h rfl

theorem withoutStar_eq_self {cs : List Char} (h : cs.head? ≠ some '*') : withoutStar cs = cs := by
  unfold withoutStar
  split
  · exact absurd rfl h
  · exact absurd rfl h
  · rfl

theorem head?_trimEnd {cs : List Char} {c : Char} (h : cs.head? ≠ some c) :
    (Text.trimEnd cs).head? ≠ some c := by
  obtain ⟨after, ha⟩ := Text.trimEnd_prefix cs
  intro hc
  rw [← ha, List.head?_append, hc] at h
  exact h rfl

/-- Taking the decoration away commutes with trimming. -/
theorem trim_drop_decorationLength (cs : List Char) :
    Text.trim (cs.drop (decorationLength cs)) = withoutStar (Text.trim cs) := by
  have hstar : Text.isBlank '*' = false := by decide
  obtain ⟨blanks, hblanks⟩ : ∃ blanks, cs.takeWhile Text.isBlank = blanks := ⟨_, rfl⟩
  have hb : ∀ c ∈ blanks, Text.isBlank c = true := fun c hc =>
    Text.isBlank_of_mem_takeWhile (hblanks ▸ hc)
  have hcut : ∀ n, cs.drop (blanks.length + n) = (cs.dropWhile Text.isBlank).drop n := by
    intro n
    have hcs := List.takeWhile_append_dropWhile (p := Text.isBlank) (l := cs)
    rw [hblanks] at hcs
    conv => lhs; rw [← hcs]
    rw [← List.drop_drop, List.drop_left]
  have htrim : Text.trim cs = Text.trimEnd (cs.dropWhile Text.isBlank) := rfl
  simp only [decorationLength, hblanks]
  split
  · -- the star of a closing delimiter
    rename_i r he
    rw [htrim, ← Nat.add_zero blanks.length, hcut, he, List.drop_zero, Text.trim_cons hstar,
      Text.trimEnd_cons, Text.trimEnd_cons]
    simp [hstar, show Text.isBlank '/' = false by decide, withoutStar]
  · rename_i c r hc he
    have hne : (Text.trimEnd (c :: r)).head? ≠ some '/' :=
      head?_trimEnd fun h => hc (by cases h; rfl)
    have hr : Text.trim (cs.drop (if Text.isBlank c = true then blanks.length + 2
        else blanks.length + 1)) = Text.trim (c :: r) := by
      split
      · rename_i hblank
        rw [hcut, he, Text.trim_blank_cons hblank]
        rfl
      · rw [hcut, he]
        rfl
    rw [hr, htrim, he, Text.trimEnd_cons, hstar, Bool.and_false, if_neg (by simp),
      withoutStar_star hne, Text.trim_trimEnd]
  · rename_i he
    rw [htrim, hcut, he]
    rfl
  · rename_i hclosing hdecorated hbare
    have hne : (cs.dropWhile Text.isBlank).head? ≠ some '*' := by
      intro h
      cases he : cs.dropWhile Text.isBlank with
      | nil => simp [he] at h
      | cons c r =>
        rw [he] at h
        cases h
        cases r with
        | nil => exact hbare he
        | cons d r => exact hdecorated d r he
    rw [htrim, withoutStar_eq_self (head?_trimEnd hne), ← Nat.add_zero blanks.length, hcut,
      List.drop_zero]
    exact congrArg Text.trimEnd (Text.dropWhile_eq_self fun _ _ => Text.isBlank_of_dropWhile_eq)

/-! ## Lines as they are read -/

theorem exists_dropReturns (line : List Char) :
    ∃ returns, line = dropReturns line ++ returns ∧ ∀ c ∈ returns, Text.isBlank c = true := by
  refine ⟨(line.reverse.takeWhile (· == '\r')).reverse, ?_, fun c hc => ?_⟩
  · have h := congrArg List.reverse
      (List.takeWhile_append_dropWhile (p := (· == '\r')) (l := line.reverse))
    rw [List.reverse_append, List.reverse_reverse] at h
    exact h.symm
  · have hreturn := List.all_eq_true.mp List.all_takeWhile c (List.mem_reverse.mp hc)
    rw [eq_of_beq hreturn]
    decide

theorem trim_dropReturns (line : List Char) : Text.trim (dropReturns line) = Text.trim line := by
  obtain ⟨returns, he, hblank⟩ := exists_dropReturns line
  conv => rhs; rw [he]
  exact (Text.trim_append_blanks hblank _).symm

theorem dropReturns_append {c : Char} (h : c ≠ '\r') (before after : List Char) :
    dropReturns (before ++ c :: after) = before ++ c :: dropReturns after := by
  rw [dropReturns, dropReturns, List.reverse_append, List.reverse_cons, List.append_assoc,
    List.dropWhile_append]
  split
  · rename_i hafter
    rw [List.isEmpty_iff.mp hafter, List.singleton_append,
      List.dropWhile_cons_of_neg (by simpa using h)]
    simp
  · simp

/-- The text of a line behind the first, trimmed: the line is trimmed, and a star that decorates
it is taken away with the white space behind it. -/
theorem trim_lineOf (line : List Char) :
    Text.trim (lineOf false false line).text = withoutStar (Text.trim line) := by
  have htext : (lineOf false false line).text =
      Text.trimEnd ((dropReturns line).drop (decorationLength (dropReturns line))) := rfl
  rw [htext, Text.trim_trimEnd, trim_drop_decorationLength, trim_dropReturns]

theorem openingLength_delimiter (cs : List Char) :
    openingLength? ('/' :: '*' :: '*' :: cs) = some 3 := by
  have hslash : Text.isBlank '/' = false := by decide
  simp [openingLength?, hslash]

/-- The text of the first line is all that follows the opening delimiter. -/
theorem trim_lineOf_opening (cs : List Char) :
    Text.trim (lineOf true false ('/' :: '*' :: '*' :: cs)).text = Text.trim cs := by
  have hreturns : dropReturns ('/' :: '*' :: '*' :: cs) = '/' :: '*' :: '*' :: dropReturns cs :=
    dropReturns_append (by decide) ['/', '*'] cs
  have htext : (lineOf true false ('/' :: '*' :: '*' :: cs)).text =
      Text.trimEnd (dropReturns cs) := by
    simp only [lineOf, hreturns, openingLength_delimiter]
    rfl
  rw [htext, Text.trim_trimEnd, trim_dropReturns]

/-- The last closing delimiter of a text is that of its end, if there is one. -/
theorem beforeClosing_append_of_some {rest cut : List Char} (h : beforeClosing? rest = some cut)
    (cs : List Char) : beforeClosing? (cs ++ rest) = some (cs ++ cut) := by
  induction cs with
  | nil => exact h
  | cons c cs ih => rw [List.cons_append, beforeClosing?, ih, List.cons_append]

theorem beforeClosing_append (cs : List Char) :
    beforeClosing? (cs ++ ['*', '/']) = some cs := by
  have hclosing : beforeClosing? ['*', '/'] = some [] := rfl
  rw [beforeClosing_append_of_some hclosing, List.append_nil]

/-- What stands before the closing delimiter on the last line. -/
theorem trim_lineOf_closing (cs : List Char) :
    Text.trim (lineOf false true (cs ++ ['*', '/'])).text = withoutStar (Text.trim cs) := by
  have hreturns : dropReturns (cs ++ ['*', '/']) = cs ++ ['*', '/'] := by
    rw [← List.singleton_append, ← List.append_assoc, dropReturns_append (by decide)]
    rfl
  have htext : (lineOf false true (cs ++ ['*', '/'])).text =
      Text.trimEnd (cs.drop (decorationLength cs)) := by
    simp [lineOf, hreturns, beforeClosing_append]
  rw [htext, Text.trim_trimEnd, trim_drop_decorationLength]

/-! ## Layouts -/

/-- White space that does not end a line. -/
def IsSpacing (cs : List Char) : Prop := ∀ c ∈ cs, Text.isBlank c = true ∧ c ≠ '\n'

instance (cs : List Char) : Decidable (IsSpacing cs) := List.decidableBAll _ cs

theorem IsSpacing.blank {cs : List Char} (h : IsSpacing cs) : ∀ c ∈ cs, Text.isBlank c = true :=
  fun c hc => (h c hc).1

theorem IsSpacing.newline {cs : List Char} (h : IsSpacing cs) : '\n' ∉ cs :=
  fun hm => (h _ hm).2 rfl

/-- How a line is laid out around its text. -/
structure Margin where
  /-- The white space at the start of the line. -/
  blanks : List Char
  /-- The white space behind the star, if there is a star. -/
  star : Option (List Char)
  /-- The white space at the end of the line. -/
  trailing : List Char
  /-- The line ends with a carriage return and a line feed. -/
  returns : Bool

namespace Margin

/-- What stands before the text. -/
def lead (m : Margin) : List Char :=
  match m.star with
  | none => m.blanks
  | some more => m.blanks ++ '*' :: more

def ending (m : Margin) : List Char := m.trailing ++ if m.returns then ['\r'] else []

def line (m : Margin) (text : List Char) : List Char := m.lead ++ text ++ m.ending

/-- A text without a star of its own may follow white space, and one that does not make the star
a closing delimiter may follow a star. -/
structure Fits (m : Margin) (text : List Char) : Prop where
  blanks : IsSpacing m.blanks
  trailing : IsSpacing m.trailing
  bare : m.star = none → text.head? ≠ some '*'
  starred : ∀ more, m.star = some more → IsSpacing more ∧ (more = [] → text.head? ≠ some '/')

end Margin

/-- How a comment is laid out around its lines. -/
structure Layout where
  /-- The first line; its white space follows the opening delimiter. -/
  opening : Margin
  /-- The lines behind the first. -/
  margins : List Margin
  /-- The white space before the closing delimiter, which stands on a line of its own. -/
  closing : List Char
  /-- A star stands directly before the closing delimiter. -/
  closingStar : Bool

namespace Layout

def closingLine (l : Layout) : List Char :=
  (l.closing ++ if l.closingStar then ['*'] else []) ++ ['*', '/']

def lines (l : Layout) (first : List Char) (rest : List (List Char)) : List (List Char) :=
  ('/' :: '*' :: '*' :: l.opening.line first) :: List.zipWith Margin.line l.margins rest ++
    [l.closingLine]

def write (l : Layout) (first : List Char) (rest : List (List Char)) : String :=
  String.ofList (joinLines (l.lines first rest))

/-- The layout is made for these texts. -/
structure Fits (l : Layout) (first : List Char) (rest : List (List Char)) : Prop where
  blanks : IsSpacing l.opening.blanks
  trailing : IsSpacing l.opening.trailing
  /-- The first line has no star but those of the delimiter. -/
  star : l.opening.star = none
  margins : List.Forall₂ Margin.Fits l.margins rest
  closing : IsSpacing l.closing

end Layout

/-! ## The lines of a layout -/

theorem newline_margin {m : Margin} {text : List Char} (h : m.Fits text) (ht : '\n' ∉ text) :
    '\n' ∉ m.line text := by
  have hlead : '\n' ∉ m.lead := by
    unfold Margin.lead
    split
    · exact h.blanks.newline
    · rename_i more hm
      simp [h.blanks.newline, (h.starred more hm).1.newline]
  have hending : '\n' ∉ m.ending := by
    unfold Margin.ending
    split <;> simp [h.trailing.newline]
  simp [Margin.line, hlead, ht, hending]

theorem blank_ending {m : Margin} (h : IsSpacing m.trailing) :
    ∀ c ∈ m.ending, Text.isBlank c = true := by
  intro c hc
  rcases List.mem_append.mp hc with hc | hc
  · exact h.blank c hc
  · split at hc
    · rw [List.mem_singleton.mp hc]
      decide
    · cases hc

/-- A line that is laid out around a trimmed text gives the text back. -/
theorem trim_lineOf_margin {m : Margin} {text : List Char} (h : m.Fits text)
    (ht : Text.trim text = text) : Text.trim (lineOf false false (m.line text)).text = text := by
  rw [trim_lineOf, Margin.line, Text.trim_append_blanks (blank_ending h.trailing), Margin.lead]
  cases hm : m.star with
  | none =>
    show withoutStar (Text.trim (m.blanks ++ text)) = text
    rw [Text.trim_blanks_append h.blanks.blank, ht, withoutStar_eq_self (h.bare hm)]
  | some more =>
    obtain ⟨hmore, hslash⟩ := h.starred more hm
    have hstar : Text.isBlank '*' = false := by decide
    show withoutStar (Text.trim (m.blanks ++ '*' :: more ++ text)) = text
    rw [List.append_assoc, List.cons_append, Text.trim_blanks_append h.blanks.blank,
      Text.trim_cons hstar, Text.trimEnd_cons, hstar, Bool.and_false, if_neg (by simp),
      withoutStar_star, Text.trim_trimEnd, Text.trim_blanks_append hmore.blank, ht]
    apply head?_trimEnd
    cases more with
    | nil => exact hslash rfl
    | cons c more =>
      rintro ⟨rfl⟩
      exact absurd (hmore.blank '/' (by simp)) (by decide)

theorem newline_margins {margins : List Margin} {rest : List (List Char)}
    (h : List.Forall₂ Margin.Fits margins rest) (hrest : ∀ text ∈ rest, IsLine text) :
    ∀ line ∈ List.zipWith Margin.line margins rest, '\n' ∉ line := by
  induction h with
  | nil => simp
  | cons hm _ ih =>
    intro line hl
    rcases List.mem_cons.mp hl with rfl | hl
    · exact newline_margin hm (hrest _ (by simp)).newline
    · exact ih (fun t ht => hrest t (by simp [ht])) line hl

theorem textsOf_margins {margins : List Margin} {rest : List (List Char)}
    (h : List.Forall₂ Margin.Fits margins rest) (hrest : ∀ text ∈ rest, IsLine text) :
    textsOf ((List.zipWith Margin.line margins rest).map (lineOf false false)) = rest := by
  induction h with
  | nil => rfl
  | cons hm _ ih =>
    rw [List.zipWith_cons_cons, List.map_cons, textsOf_cons,
      trim_lineOf_margin hm (hrest _ (by simp)).trim, ih fun t ht => hrest t (by simp [ht])]

namespace Layout

variable {l : Layout} {first : List Char} {rest : List (List Char)} (h : l.Fits first rest)
include h

theorem Fits.line_opening :
    l.opening.line first = l.opening.blanks ++ first ++ l.opening.ending := by
  rw [Margin.line, Margin.lead, h.star]

theorem Fits.newline_closingLine : '\n' ∉ l.closingLine := by
  unfold closingLine
  split <;> simp [h.closing.newline]

theorem Fits.trim_closingLine : Text.trim (lineOf false true l.closingLine).text = [] := by
  rw [closingLine, trim_lineOf_closing, Text.trim_blanks_append h.closing.blank]
  split <;> rfl

/-- The lines of a comment in a layout are found again. -/
theorem Fits.splitLines_write (hfirst : IsLine first) (hrest : ∀ text ∈ rest, IsLine text) :
    splitLines (l.write first rest).toList = l.lines first rest := by
  rw [write, String.toList_ofList]
  refine splitLines_joinLines _ (by simp [lines]) fun line hl => ?_
  rcases List.mem_append.mp hl with hl | hl
  · rcases List.mem_cons.mp hl with rfl | hl
    · have hopening : l.opening.Fits [] :=
        ⟨h.blanks, h.trailing, by simp, fun more hm => by simp [h.star] at hm⟩
      have hempty := newline_margin hopening (by simp)
      simp only [Margin.line, List.mem_append, not_or] at hempty
      simp [Margin.line, hempty, hfirst.newline]
    · exact newline_margins h.margins hrest line hl
  · rw [List.mem_singleton.mp hl]
    exact h.newline_closingLine

end Layout

/-- The trimmed lines of a layout are those that it was made for, with the one of the closing
delimiter behind them. -/
theorem textsOf_contentLines_write {l : Layout} {first : List Char} {rest : List (List Char)}
    (hfirst : IsLine first) (hrest : ∀ text ∈ rest, IsLine text) (h : l.Fits first rest) :
    textsOf (contentLines (l.write first rest).toList) = first :: rest ++ [[]] := by
  have hopening : Text.trim (lineOf true false ('/' :: '*' :: '*' :: l.opening.line first)).text =
      first := by
    rw [trim_lineOf_opening, h.line_opening, Text.trim_append_blanks (blank_ending h.trailing),
      Text.trim_blanks_append h.blanks.blank, hfirst.trim]
  have hlast : (List.zipWith Margin.line l.margins rest ++ [l.closingLine]).isEmpty = false := by
    simp
  rw [contentLines, h.splitLines_write hfirst hrest]
  simp only [Layout.lines, List.cons_append, hlast]
  rw [textsOf_cons, hopening, laterLines_append, textsOf_append, textsOf_margins h.margins hrest]
  show first :: (rest ++ [Text.trim (lineOf false true l.closingLine).text]) = _
  rw [h.trim_closingLine]

/-! ## What is read from the lines -/

theorem textsOf_takeWhile (ls : List Line) :
    textsOf (ls.takeWhile fun l => !l.startsTag) =
      (textsOf ls).takeWhile fun text => !Keyword.startsTag text := by
  rw [textsOf, textsOf, List.takeWhile_map]
  congr 2
  funext l
  simp [Line.startsTag_eq]

/-- A block without the column of its place. -/
def Block.atStart (b : Block) : Block := { b with location := ⟨b.location.line, 0⟩ }

/-- Where lines are cut into blocks does not depend on columns. -/
theorem blocks_eq_of_textsOf {start : Location} {ls ls' : List Line} (index : Nat)
    (h : textsOf ls = textsOf ls') :
    (blocks start index ls).1 = (blocks start index ls').1 ∧
      (blocks start index ls).2.map Block.atStart =
        (blocks start index ls').2.map Block.atStart := by
  induction ls generalizing ls' index with
  | nil =>
    rw [List.map_eq_nil_iff.mp h.symm]
    exact ⟨rfl, rfl⟩
  | cons l ls ih =>
    cases ls' with
    | nil => cases h
    | cons l' ls' =>
      obtain ⟨hl, hls⟩ := List.cons.inj h
      obtain ⟨htexts, hblocks⟩ := ih (index + 1) hls
      have hl : Text.trim l.text = Text.trim l'.text := hl
      have hstarts : l.startsTag = l'.startsTag := by rw [Line.startsTag_eq, Line.startsTag_eq, hl]
      simp only [blocks, hl, hstarts, htexts]
      split
      · exact ⟨rfl, by simp [hblocks, Block.atStart, tagLocation]⟩
      · exact ⟨rfl, hblocks⟩

end Comment

/-- A tag without the column of its place. -/
def Tag.atStart (t : Tag) : Tag := { t with location := ⟨t.location.line, 0⟩ }

namespace Comment

theorem toTag_atStart (b : Block) : b.toTag.atStart = b.atStart.toTag := by
  rw [Tag.atStart, location_toTag]
  exact (Tag.parse_location _ b.location ⟨b.location.line, 0⟩).symm

/-- What is read before the first tag depends on the trimmed lines there. -/
theorem description_eq_of_textsOf {raw raw' : String} (start : Location)
    (h : textsOf ((contentLines raw.toList).takeWhile fun l => !l.startsTag) =
      textsOf ((contentLines raw'.toList).takeWhile fun l => !l.startsTag)) :
    (parse raw start).description = (parse raw' start).description ∧
      (parse raw start).blankLinesAfterDescription =
        (parse raw' start).blankLinesAfterDescription := by
  have hdescription : (parse raw start).description = (parse raw' start).description :=
    congrArg (fun texts => (paragraphsFrom [] texts).map fun run => String.ofList (joinLines run)) h
  refine ⟨hdescription, ?_⟩
  simp only [parse] at hdescription ⊢
  rw [hdescription, trailingBlanks_eq, trailingBlanks_eq, h]

/-- Only columns depend on more than the trimmed lines. -/
theorem parse_eq_of_textsOf {raw raw' : String} (start : Location)
    (h : textsOf (contentLines raw.toList) = textsOf (contentLines raw'.toList)) :
    (parse raw start).description = (parse raw' start).description ∧
      (parse raw start).blankLinesAfterDescription =
        (parse raw' start).blankLinesAfterDescription ∧
      (parse raw start).location = (parse raw' start).location ∧
      (parse raw start).tags.map Tag.atStart = (parse raw' start).tags.map Tag.atStart := by
  have hbefore : textsOf ((contentLines raw.toList).takeWhile fun l => !l.startsTag) =
      textsOf ((contentLines raw'.toList).takeWhile fun l => !l.startsTag) := by
    rw [textsOf_takeWhile, textsOf_takeWhile, h]
  obtain ⟨hdescription, hblanks⟩ := description_eq_of_textsOf start hbefore
  refine ⟨hdescription, hblanks, rfl, ?_⟩
  have hblocks : (blocks start 0 (contentLines raw.toList)).2.map Block.atStart =
      (blocks start 0 (contentLines raw'.toList)).2.map Block.atStart :=
    (blocks_eq_of_textsOf 0 h).2
  simp only [parse, List.map_map]
  have htags : ∀ bs : List Block,
      bs.map (Tag.atStart ∘ Block.toTag) = (bs.map Block.atStart).map Block.toTag := by
    intro bs
    rw [List.map_map]
    exact List.map_congr_left fun b _ => toTag_atStart b
  rw [htags, htags, hblocks]

/-- Two layouts of the same lines are read alike: the description, the number of empty lines
behind it, and the tags with all that they say and the lines that they stand on. Only columns may
differ. -/
theorem layout_independent {first : List Char} {rest : List (List Char)} (hfirst : IsLine first)
    (hrest : ∀ text ∈ rest, IsLine text) {l l' : Layout} (h : l.Fits first rest)
    (h' : l'.Fits first rest) (start : Location) :
    let d := parse (l.write first rest) start
    let d' := parse (l'.write first rest) start
    d.description = d'.description ∧
      d.blankLinesAfterDescription = d'.blankLinesAfterDescription ∧
      d.location = d'.location ∧ d.tags.map Tag.atStart = d'.tags.map Tag.atStart := by
  apply parse_eq_of_textsOf
  rw [textsOf_contentLines_write hfirst hrest h, textsOf_contentLines_write hfirst hrest h']

/-- A star before each line, a space behind it, and line feeds. -/
def starredLayout : Layout :=
  ⟨⟨[], none, [], false⟩, List.replicate 2 ⟨[' '], some [' '], [], false⟩, [' '], false⟩

/-- Tabs before each line, a star before the last one alone, and carriage returns. -/
def bareLayout : Layout :=
  ⟨⟨[' '], none, [], true⟩, [⟨['\t'], none, [' '], true⟩, ⟨['\t'], some [], ['\t'], false⟩], ['\t'],
    true⟩

/-- A description and a tag, in two layouts. -/
theorem layout_independent_bare :
    let texts := ["Adds.".toList, "@param a".toList]
    starredLayout.write [] texts = "/**\n * Adds.\n * @param a\n */" ∧
      bareLayout.write [] texts = "/** \r\n\tAdds. \r\n\t*@param a\t\n\t**/" ∧
      IsLine [] ∧ (∀ text ∈ texts, IsLine text) ∧ starredLayout.Fits [] texts ∧
      bareLayout.Fits [] texts ∧
      (parse (starredLayout.write [] texts) .start).tags.map Tag.atStart =
        (parse (bareLayout.write [] texts) .start).tags.map Tag.atStart := by
  intro texts
  have hrest : ∀ text ∈ texts, IsLine text := by
    intro text ht
    rcases List.mem_cons.mp ht with rfl | ht
    · exact ⟨by decide +kernel, by decide +kernel⟩
    · rw [List.mem_singleton.mp ht]
      exact ⟨by decide +kernel, by decide +kernel⟩
  have hstarred : starredLayout.Fits [] texts := by
    have hmargin : ∀ text : List Char, Margin.Fits ⟨[' '], some [' '], [], false⟩ text := by
      intro text
      refine ⟨by decide, by decide, by simp, ?_⟩
      rintro more ⟨rfl⟩
      exact ⟨by decide, by simp⟩
    exact ⟨by decide, by decide, rfl, .cons (hmargin _) (.cons (hmargin _) .nil), by decide⟩
  have hbare : bareLayout.Fits [] texts := by
    refine ⟨by decide, by decide, rfl, .cons ?_ (.cons ?_ .nil), by decide⟩
    · exact ⟨by decide, by decide, by decide +kernel, by simp⟩
    · refine ⟨by decide, by decide, by simp, ?_⟩
      rintro more ⟨rfl⟩
      exact ⟨by decide, by decide +kernel⟩
  exact ⟨by decide +kernel, by decide +kernel, isLine_nil, hrest, hstarred, hbare,
    (layout_independent isLine_nil hrest hstarred hbare .start).2.2.2⟩

end Comment

end DocCheck
