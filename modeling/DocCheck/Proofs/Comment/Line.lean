import DocCheck.Comment.Parser
import DocCheck.Proofs.Text.Blank

/-!
# Lines of comments and their texts

What is left of a line when delimiters, decoration and white space are taken
away, and what a line gives that is written around a given text.

Results:

* `splitLines_joinLines`: lines that are joined are split again.
* `lineOf_eq_append`: the text of a line is a piece of the line, at its column.
* `getElem?_contentLines`: the lines of a comment are those of its text, one by one.
* `isLine_contentLines`: the trimmed lines of a comment hold no line feed and no white space at
  their ends.
* `contentLines_rendered`: decorated texts between delimiters are the lines of the comment.
-/
namespace DocCheck.Comment

/-! ## Splitting and joining -/

theorem splitLines_append {cs : List Char} (h : '\n' ∉ cs) (rest : List Char) :
    splitLines (cs ++ '\n' :: rest) = cs :: splitLines rest := by
  induction cs with
  | nil => simp [splitLines]
  | cons c cs ih =>
    have hc : c ≠ '\n' := fun e => h (by simp [e])
    have hcs : '\n' ∉ cs := fun hm => h (by simp [hm])
    rw [List.cons_append, splitLines, if_neg hc, ih hcs]

theorem splitLines_of_not_mem {cs : List Char} (h : '\n' ∉ cs) : splitLines cs = [cs] := by
  induction cs with
  | nil => rfl
  | cons c cs ih =>
    have hc : c ≠ '\n' := fun e => h (by simp [e])
    have hcs : '\n' ∉ cs := fun hm => h (by simp [hm])
    rw [splitLines, if_neg hc, ih hcs]

theorem splitLines_joinLines : ∀ lines : List (List Char), lines ≠ [] →
    (∀ line ∈ lines, '\n' ∉ line) → splitLines (joinLines lines) = lines
  | [], hne, _ => absurd rfl hne
  | [line], _, h => by
    rw [joinLines, List.intercalate_singleton]
    exact splitLines_of_not_mem (h line (by simp))
  | line :: next :: lines, _, h => by
    have ih := splitLines_joinLines (next :: lines) (by simp) fun l hl => h l (by simp [hl])
    rw [joinLines] at ih
    rw [joinLines, List.intercalate_cons_cons, List.append_assoc, List.singleton_append,
      splitLines_append (h line (by simp)), ih]

theorem joinLines_cons (c : Char) (line : List Char) (lines : List (List Char)) :
    joinLines ((c :: line) :: lines) = c :: joinLines (line :: lines) := by
  cases lines <;> simp [joinLines, List.intercalate_cons_cons]

theorem joinLines_append (lines : List (List Char)) (last cs : List Char) :
    joinLines (lines ++ [last]) ++ cs = joinLines (lines ++ [last ++ cs]) := by
  induction lines with
  | nil => simp [joinLines]
  | cons line lines ih =>
    have hne (xs : List Char) : lines ++ [xs] ≠ [] := by simp
    simp only [joinLines] at ih ⊢
    rw [List.cons_append, List.cons_append, List.intercalate_cons_of_ne_nil (hne _),
      List.intercalate_cons_of_ne_nil (hne _), ← ih]
    simp

/-! ## What stands in front of the text of a line -/

/-- White space with one decorating star in it or, on the first line of a comment, with the
opening delimiter in it. -/
def IsLead (isFirst : Bool) (before : List Char) : Prop :=
  ∃ blanks mark more, before = blanks ++ mark ++ more ∧
    (∀ c ∈ blanks, Text.isBlank c = true) ∧ (∀ c ∈ more, Text.isBlank c = true) ∧
    (mark = [] ∨ mark = ['*'] ∨ isFirst = true ∧ (mark = ['/', '*'] ∨ mark = ['/', '*', '*']))

/-- The first `n` characters of a text may stand in front of the text of a line. -/
def HasLead (isFirst : Bool) (n : Nat) (cs : List Char) : Prop :=
  ∃ before rest, cs = before ++ rest ∧ before.length = n ∧ IsLead isFirst before

theorem IsLead.append {isFirst : Bool} {before blanks : List Char} (h : IsLead isFirst before)
    (hb : ∀ c ∈ blanks, Text.isBlank c = true) : IsLead isFirst (before ++ blanks) := by
  obtain ⟨first, mark, more, rfl, hfirst, hmore, hmark⟩ := h
  refine ⟨first, mark, more ++ blanks, by simp, hfirst, fun c hc => ?_, hmark⟩
  rcases List.mem_append.mp hc with hc | hc
  · exact hmore c hc
  · exact hb c hc

/-- A mark behind the white space at the start of a text, and the white space behind it. -/
theorem hasLead_of_dropWhile {isFirst : Bool} {cs : List Char} (mark more : List Char)
    {rest : List Char} (h : cs.dropWhile Text.isBlank = mark ++ more ++ rest)
    (hmore : ∀ c ∈ more, Text.isBlank c = true)
    (hmark : mark = [] ∨ mark = ['*'] ∨
      isFirst = true ∧ (mark = ['/', '*'] ∨ mark = ['/', '*', '*'])) :
    HasLead isFirst ((cs.takeWhile Text.isBlank).length + mark.length + more.length) cs := by
  refine ⟨cs.takeWhile Text.isBlank ++ mark ++ more, rest, ?_, by simp [Nat.add_assoc],
    cs.takeWhile Text.isBlank, mark, more, rfl, fun c hc => Text.isBlank_of_mem_takeWhile hc,
    hmore, hmark⟩
  calc cs = cs.takeWhile Text.isBlank ++ cs.dropWhile Text.isBlank :=
        (List.takeWhile_append_dropWhile).symm
    _ = cs.takeWhile Text.isBlank ++ mark ++ more ++ rest := by rw [h]; simp

theorem hasLead_openingLength {cs : List Char} {n : Nat} (h : openingLength? cs = some n) :
    HasLead true n cs := by
  simp only [openingLength?] at h
  split at h
  · rename_i rest he
    cases h
    exact hasLead_of_dropWhile ['/', '*', '*'] [] he (by simp) (by simp)
  · rename_i rest _ he
    cases h
    exact hasLead_of_dropWhile ['/', '*'] [] he (by simp) (by simp)
  · cases h

theorem hasLead_decorationLength (isFirst : Bool) (cs : List Char) :
    HasLead isFirst (decorationLength cs) cs := by
  have hplain : HasLead isFirst (cs.takeWhile Text.isBlank).length cs :=
    hasLead_of_dropWhile [] [] rfl (by simp) (by simp)
  simp only [decorationLength]
  split
  · exact hplain
  · rename_i c rest _ he
    split
    · rename_i hc
      exact hasLead_of_dropWhile ['*'] [c] he (by simpa using hc) (by simp)
    · exact hasLead_of_dropWhile ['*'] [] he (by simp) (by simp)
  · rename_i he
    have hstar : cs.dropWhile Text.isBlank = ['*'] ++ [] ++ [] := he
    exact hasLead_of_dropWhile ['*'] [] hstar (by simp) (by simp)
  · exact hplain

/-! ## Texts of lines -/

theorem beforeClosing_prefix {cs before : List Char} (h : beforeClosing? cs = some before) :
    before <+: cs := by
  induction cs generalizing before with
  | nil => cases h
  | cons c cs ih =>
    rw [beforeClosing?] at h
    split at h
    · rename_i b hb
      cases h
      exact List.cons_prefix_cons.mpr ⟨rfl, ih hb⟩
    · split at h
      · cases h
        exact List.nil_prefix
      · cases h

theorem dropReturns_prefix (line : List Char) : dropReturns line <+: line := by
  have hs := List.dropWhile_suffix (l := line.reverse) (· == '\r')
  simpa [dropReturns] using List.reverse_prefix.mpr hs

/-- The characters that are taken from the start of a line, `opening` of them with the opening
delimiter, if there is one. -/
def skipped (opening : Option Nat) (content : List Char) : Nat :=
  if opening.isSome then 0 else decorationLength content

/-- How a line is read from what is left between its delimiters. -/
theorem exists_lineOf {isFirst : Bool} {line : List Char} {opening : Option Nat} (isLast : Bool)
    (h : (if isFirst then openingLength? (dropReturns line) else none) = opening) :
    ∃ content, content <+: (dropReturns line).drop (opening.getD 0) ∧
      lineOf isFirst isLast line = ⟨Text.trimEnd (content.drop (skipped opening content)),
        opening.getD 0 + skipped opening content⟩ := by
  simp only [lineOf, h]
  cases hb : if isLast then beforeClosing? ((dropReturns line).drop (opening.getD 0)) else none with
  | none => exact ⟨_, List.prefix_rfl, rfl⟩
  | some before =>
    split at hb
    · exact ⟨before, beforeClosing_prefix hb, rfl⟩
    · cases hb

/-- What is taken from the start of a line stands in front of its text. -/
theorem hasLead_skipped {isFirst : Bool} {line content closing : List Char} {opening : Option Nat}
    (h : (if isFirst then openingLength? line else none) = opening)
    (hcontent : content ++ closing = line.drop (opening.getD 0)) :
    ∃ before, line = before ++ content.drop (skipped opening content) ++ closing ∧
      before.length = opening.getD 0 + skipped opening content ∧ IsLead isFirst before := by
  cases opening with
  | none =>
    obtain ⟨before, rest, hrest, hlen, hlead⟩ := hasLead_decorationLength isFirst content
    refine ⟨before, ?_, by simpa [skipped] using hlen, hlead⟩
    have hline : content ++ closing = line := hcontent
    have hdrop : content.drop (decorationLength content) = rest := by
      rw [← hlen]
      simp [hrest]
    simp only [skipped, Option.isSome_none, Bool.false_eq_true, if_false]
    rw [hdrop, ← hrest, hline]
  | some n =>
    cases isFirst with
    | false => cases h
    | true =>
      obtain ⟨before, rest, hrest, hlen, hlead⟩ := hasLead_openingLength h
      refine ⟨before, ?_, by simpa [skipped] using hlen, hlead⟩
      have hdrop : line.drop n = rest := by rw [hrest, List.drop_left' hlen]
      rw [Option.getD_some, hdrop] at hcontent
      simpa [skipped, hcontent] using hrest

/-- The text of a line is a piece of the line, at its column. -/
theorem lineOf_eq_append (isFirst isLast : Bool) (line : List Char) :
    ∃ before after, line = before ++ (lineOf isFirst isLast line).text ++ after ∧
      before.length = (lineOf isFirst isLast line).column ∧ IsLead isFirst before := by
  obtain ⟨opening, hopening⟩ : ∃ opening,
      (if isFirst then openingLength? (dropReturns line) else none) = opening := ⟨_, rfl⟩
  obtain ⟨content, ⟨closing, hclosing⟩, he⟩ := exists_lineOf isLast hopening
  obtain ⟨before, hline, hlen, hlead⟩ := hasLead_skipped hopening hclosing
  obtain ⟨returns, hreturns⟩ := dropReturns_prefix line
  obtain ⟨blanks, hblanks⟩ := Text.trimEnd_prefix (content.drop (skipped opening content))
  rw [he]
  refine ⟨before, blanks ++ closing ++ returns, ?_, hlen, hlead⟩
  calc line = dropReturns line ++ returns := hreturns.symm
    _ = before ++ content.drop (skipped opening content) ++ closing ++ returns := by rw [hline]
    _ = before ++ (Text.trimEnd (content.drop (skipped opening content)) ++ blanks) ++ closing ++
        returns := by rw [hblanks]
    _ = before ++ Text.trimEnd (content.drop (skipped opening content)) ++
        (blanks ++ closing ++ returns) := by simp

/-- The text of a line is made of characters of the line. -/
theorem mem_of_mem_lineOf {isFirst isLast : Bool} {line : List Char} {c : Char}
    (h : c ∈ (lineOf isFirst isLast line).text) : c ∈ line := by
  obtain ⟨before, after, he, -, -⟩ := lineOf_eq_append isFirst isLast line
  rw [he]
  simp [h]

theorem getElem?_laterLines (lines : List (List Char)) (i : Nat) :
    (laterLines lines)[i]? = lines[i]?.map (lineOf false (decide (i + 1 = lines.length))) := by
  fun_induction laterLines lines generalizing i with
  | case1 => simp
  | case2 line => cases i <;> simp
  | case3 line lines hn ih =>
    cases i with
    | zero =>
      have hlines : lines.length ≠ 0 := fun h => hn (List.length_eq_zero_iff.mp h)
      simp [hlines]
    | succ i => simpa using ih i

/-- The lines of a comment are those of its text, one by one. -/
theorem getElem?_contentLines (raw : List Char) (i : Nat) :
    (contentLines raw)[i]? = (splitLines raw)[i]?.map
      (lineOf (decide (i = 0)) (decide (i + 1 = (splitLines raw).length))) := by
  unfold contentLines
  split
  · rename_i he
    simp [he]
  · rename_i line lines he
    rw [he]
    cases i with
    | zero => cases lines <;> simp
    | succ i => simpa using getElem?_laterLines lines i

/-! ## Trimmed lines -/

/-- A text that a line may be trimmed to. -/
structure IsLine (text : List Char) : Prop where
  newline : '\n' ∉ text
  trim : Text.trim text = text

theorem isLine_nil : IsLine [] := ⟨by simp, rfl⟩

theorem newline_contentLines (raw : List Char) : ∀ l ∈ contentLines raw, '\n' ∉ l.text := by
  intro l hl hm
  obtain ⟨i, hi⟩ := List.mem_iff_getElem?.mp hl
  rw [getElem?_contentLines, Option.map_eq_some_iff] at hi
  obtain ⟨line, hline, rfl⟩ := hi
  exact not_mem_of_mem_splitLines (List.mem_of_getElem? hline) (mem_of_mem_lineOf hm)

/-- The trimmed lines of a comment. -/
theorem isLine_contentLines {raw : List Char} {l : Line} (h : l ∈ contentLines raw) :
    IsLine (Text.trim l.text) :=
  ⟨fun hm => newline_contentLines raw l h (Text.mem_of_mem_trim hm), Text.trim_trim l.text⟩

/-! ## Decorated lines -/

/-- A text behind the star that decorates a line. -/
def decorated (text : List Char) : List Char := ' ' :: '*' :: ' ' :: text

/-- The line of a text in a tag; an empty line ends with the star. -/
def decoratedOrBare (text : List Char) : List Char :=
  if text.isEmpty then [' ', '*'] else decorated text

/-- What is read from such a line. -/
def lineAt (text : List Char) : Line := ⟨text, if text.isEmpty then 2 else 3⟩

theorem dropReturns_eq_self {line : List Char} (h : ∀ c r, line.reverse = c :: r → c ≠ '\r') :
    dropReturns line = line := by
  rw [dropReturns, Text.dropWhile_eq_self, List.reverse_reverse]
  intro c r hr
  exact beq_false_of_ne (h c r hr)

theorem dropReturns_decorated {text : List Char} (hne : text ≠ []) (h : Text.trim text = text) :
    dropReturns (decorated text) = decorated text := by
  apply dropReturns_eq_self
  rintro c r hr rfl
  obtain ⟨d, s, hd⟩ := List.exists_cons_of_ne_nil (List.reverse_ne_nil_iff.mpr hne)
  have hb : Text.isBlank d = false := by
    rw [← h] at hd
    exact Text.isBlank_of_trimEnd_reverse hd
  have he : (decorated text).reverse = d :: (s ++ [' ', '*', ' ']) := by
    simp [decorated, hd]
  rw [he] at hr
  cases hr
  exact absurd hb (by decide)

theorem lineOf_decorated {text : List Char} (hne : text ≠ []) (h : Text.trim text = text) :
    lineOf false false (decorated text) = ⟨text, 3⟩ := by
  have hskip : decorationLength (decorated text) = 3 := by
    simp [decorated, decorationLength, show Text.isBlank ' ' = true by decide,
      show Text.isBlank '*' = false by decide]
  rw [lineOf, dropReturns_decorated hne h]
  show Line.mk (Text.trimEnd ((decorated text).drop (decorationLength (decorated text))))
    (0 + decorationLength (decorated text)) = ⟨text, 3⟩
  rw [hskip]
  show Line.mk (Text.trimEnd text) 3 = ⟨text, 3⟩
  rw [Text.trimEnd_eq_self h]

/-- A line that is written around a trimmed text gives the text back. -/
theorem lineOf_decoratedOrBare {text : List Char} (h : Text.trim text = text) :
    lineOf false false (decoratedOrBare text) = lineAt text := by
  rw [decoratedOrBare, lineAt]
  split
  · rename_i he
    rw [List.isEmpty_iff.mp he]
    rfl
  · rename_i he
    exact lineOf_decorated (by simpa using he) h

theorem newline_decoratedOrBare {text : List Char} (h : '\n' ∉ text) :
    '\n' ∉ decoratedOrBare text := by
  unfold decoratedOrBare decorated
  split <;> simp [h]

theorem laterLines_append {lines : List (List Char)} (closing : List Char) :
    laterLines (lines ++ [closing]) =
      lines.map (lineOf false false) ++ [lineOf false true closing] := by
  induction lines with
  | nil => rfl
  | cons line lines ih =>
    rw [List.cons_append, laterLines, ih]
    · rfl
    · simp

/-- The lines of a comment that is written as decorated texts between delimiters. -/
theorem contentLines_rendered {texts : List (List Char)} (h : ∀ text ∈ texts, IsLine text) :
    contentLines (joinLines (['/', '*', '*'] :: texts.map decoratedOrBare ++ [[' ', '*', '/']])) =
      ⟨[], 3⟩ :: texts.map lineAt ++ [⟨[], 1⟩] := by
  have hsplit : splitLines (joinLines (['/', '*', '*'] :: texts.map decoratedOrBare ++
      [[' ', '*', '/']])) = ['/', '*', '*'] :: texts.map decoratedOrBare ++ [[' ', '*', '/']] := by
    apply splitLines_joinLines
    · simp
    · intro line hl
      simp only [List.cons_append, List.mem_cons, List.mem_append, List.mem_map,
        List.not_mem_nil, or_false] at hl
      rcases hl with rfl | ⟨text, ht, rfl⟩ | rfl
      · decide
      · exact newline_decoratedOrBare (h text ht).newline
      · decide
  have hlines : (texts.map decoratedOrBare).map (lineOf false false) = texts.map lineAt := by
    rw [List.map_map]
    exact List.map_congr_left fun text ht => lineOf_decoratedOrBare (h text ht).trim
  rw [contentLines, hsplit]
  simp only [List.cons_append, laterLines_append, hlines]
  have hfirst : lineOf true (texts.map decoratedOrBare ++ [[' ', '*', '/']]).isEmpty
      ['/', '*', '*'] = ⟨[], 3⟩ := by
    rw [List.isEmpty_eq_false_iff.mpr (by simp)]
    rfl
  have hlast : lineOf false true [' ', '*', '/'] = ⟨[], 1⟩ := rfl
  rw [hfirst, hlast]

end DocCheck.Comment
