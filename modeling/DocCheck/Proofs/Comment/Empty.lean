import DocCheck.Proofs.Comment.Layout
import DocCheck.Rule.Presence

/-!
# Comments that say nothing

A comment of delimiters, white space and decorating stars has no description and
no tags, however its lines are mixed, and a function with it counts as
undocumented. One comment is the exception: where the two delimiters share their
star, the closing one is not seen behind the opening one, and its slash is taken for
a description.

Results:

* `trim_lineOf_alone`: the text of a line that opens and closes the comment.
* `textsOf_of_isBare`: no line of such a comment has a text.
* `isEmpty_of_saysNothing`: such a comment is empty, if each delimiter has its own star.
* `not_isEmpty_shared`: with one star for both delimiters it is not.
-/
namespace DocCheck.Comment

/-! ## Comments without a word -/

/-- White space, and at most one star on each line but the first. -/
def IsBare (body : List Char) : Prop :=
  ∃ first rest, splitLines body = first :: rest ∧ Text.trim first = [] ∧
    ∀ line ∈ rest, Text.trim line = [] ∨ Text.trim line = ['*']

/-- A text between the delimiters of a comment, which may share a star, with nothing else in it. -/
structure SaysNothing (raw : String) : Prop where
  opens : ['/', '*', '*'] <+: raw.toList
  closes : ['*', '/'] <:+ raw.toList
  bare : IsBare ((raw.toList.drop 3).take (raw.toList.length - 5))

/-- The delimiters share a star only if there is nothing else. -/
theorem SaysNothing.exists_body {raw : String} (h : SaysNothing raw) (hne : raw ≠ "/**/") :
    ∃ body, raw.toList = '/' :: '*' :: '*' :: (body ++ ['*', '/']) ∧ IsBare body := by
  have hbare := h.bare
  obtain ⟨behind, hbehind⟩ := h.opens
  obtain ⟨before, hbefore⟩ := h.closes
  rw [← hbehind] at hbefore hbare
  -- what stands before the closing delimiter has at least two characters
  rcases before with _ | ⟨a, _ | ⟨b, _ | ⟨c, body⟩⟩⟩
  · cases hbefore
  · cases hbefore
  · cases hbefore
    exact absurd (String.toList_inj.mp hbehind.symm) hne
  · cases hbefore
    refine ⟨body, hbehind.symm, ?_⟩
    simpa using hbare

/-! ## Their lines -/

/-- The text of a line that opens and closes the comment is all between the delimiters. -/
theorem trim_lineOf_alone (cs : List Char) :
    Text.trim (lineOf true true ('/' :: '*' :: '*' :: (cs ++ ['*', '/']))).text = Text.trim cs := by
  have hreturns : dropReturns ('/' :: '*' :: '*' :: (cs ++ ['*', '/'])) =
      '/' :: '*' :: '*' :: (cs ++ ['*', '/']) := by
    simp [dropReturns]
  have htext : (lineOf true true ('/' :: '*' :: '*' :: (cs ++ ['*', '/']))).text =
      Text.trimEnd cs := by
    simp [lineOf, hreturns, openingLength_delimiter, beforeClosing_append]
  rw [htext, Text.trim_trimEnd]

theorem withoutStar_eq_nil {cs : List Char} (h : cs = [] ∨ cs = ['*']) : withoutStar cs = [] := by
  rcases h with rfl | rfl <;> rfl

/-- The delimiters are on the first and on the last line of the comment. -/
theorem splitLines_delimited {body first last : List Char} {middle : List (List Char)}
    (h : splitLines body = first :: (middle ++ [last])) :
    splitLines ('/' :: '*' :: '*' :: (body ++ ['*', '/'])) =
      ('/' :: '*' :: '*' :: first) :: (middle ++ [last ++ ['*', '/']]) := by
  have hnewline : ∀ line ∈ first :: (middle ++ [last]), '\n' ∉ line := fun line hl =>
    not_mem_of_mem_splitLines (h ▸ hl)
  have hclosing : joinLines (first :: (middle ++ [last ++ ['*', '/']])) = body ++ ['*', '/'] := by
    have hbody : joinLines (first :: (middle ++ [last])) = body := by
      rw [← h]
      exact intercalate_splitLines body
    rw [← hbody]
    exact (joinLines_append (first :: middle) last _).symm
  rw [← hclosing, ← joinLines_cons, ← joinLines_cons, ← joinLines_cons]
  refine splitLines_joinLines _ (by simp) fun line hl => ?_
  rcases List.mem_cons.mp hl with rfl | hl
  · simpa using hnewline first (by simp)
  · rcases List.mem_append.mp hl with hl | hl
    · exact hnewline line (by simp [hl])
    · rw [List.mem_singleton.mp hl]
      simpa using hnewline last (by simp)

/-- No line of a comment without a word has a text. -/
theorem textsOf_of_isBare {body : List Char} (h : IsBare body) :
    ∀ text ∈ textsOf (contentLines ('/' :: '*' :: '*' :: (body ++ ['*', '/']))), text = [] := by
  obtain ⟨first, rest, hsplit, hfirst, hrest⟩ := h
  obtain rfl | ⟨middle, last, rfl⟩ := List.eq_nil_or_concat' rest
  · -- one line, with both delimiters
    have hnewline : '\n' ∉ first := not_mem_of_mem_splitLines (hsplit ▸ List.mem_singleton_self _)
    have hbody : first = body := by
      rw [← intercalate_splitLines body, hsplit, List.intercalate_singleton]
    rw [← hbody, contentLines, splitLines_of_not_mem (by simpa using hnewline)]
    intro text ht
    rw [List.mem_singleton.mp ht]
    exact (trim_lineOf_alone first).trans hfirst
  · have hlast : (middle ++ [last ++ ['*', '/']]).isEmpty = false := by simp
    rw [contentLines, splitLines_delimited hsplit]
    simp only [hlast]
    rw [laterLines_append]
    intro text ht
    obtain ⟨line, hl, rfl⟩ := List.mem_map.mp ht
    rcases List.mem_cons.mp hl with rfl | hl
    · exact (trim_lineOf_opening first).trans hfirst
    · rcases List.mem_append.mp hl with hl | hl
      · obtain ⟨line, hm, rfl⟩ := List.mem_map.mp hl
        rw [trim_lineOf]
        exact withoutStar_eq_nil (hrest line (by simp [hm]))
      · rw [List.mem_singleton.mp hl, trim_lineOf_closing]
        exact withoutStar_eq_nil (hrest last (by simp))

/-! ## Reading them -/

/-- A comment without texts has no paragraphs and no tags. -/
theorem parse_of_blank {raw : String} (h : ∀ text ∈ textsOf (contentLines raw.toList), text = [])
    (start : Location) : parse raw start = ⟨[], [], 0, start⟩ := by
  have hbefore : ∀ l ∈ contentLines raw.toList, l.startsTag = false := by
    intro l hl
    rw [Line.startsTag_eq, h _ (List.mem_map_of_mem hl)]
    rfl
  have hparagraphs : paragraphs (contentLines raw.toList) = [] := by
    have htexts := List.eq_replicate_of_mem h
    rw [paragraphs]
    show (paragraphsFrom [] (textsOf _)).map _ = _
    rw [htexts, paragraphsFrom_blanks]
    rfl
  rw [parse_of_lines (List.append_nil _).symm hbefore (by simp), hparagraphs]
  rfl

/-- A comment of delimiters, white space and decorating stars is empty if it is not the shortest
one, and then its function has to be documented. -/
theorem isEmpty_of_saysNothing {raw : String} (h : SaysNothing raw) (hne : raw ≠ "/**/")
    (start : Location) :
    (parse raw start).description = [] ∧ (parse raw start).tags = [] ∧
      (parse raw start).isEmpty = true ∧
      ∀ choice signature, Rule.enforceExistence choice ⟨some (parse raw start), signature⟩ =
        if choice = .mode .exceptExports ∧ signature.isExport then []
        else [⟨.enforceExistence, "Missing doc-comment for '" ++
          (if signature.name.isEmpty then "anonymous function" else signature.name) ++ "'",
          signature.location⟩] := by
  obtain ⟨body, hraw, hbody⟩ := h.exists_body hne
  have hparse : parse raw start = ⟨[], [], 0, start⟩ := by
    apply parse_of_blank
    rw [hraw]
    exact textsOf_of_isBare hbody
  rw [hparse]
  exact ⟨rfl, rfl, rfl, fun choice signature => rfl⟩

/-- Lines with and without a star, with either kind of line break and white space around them. -/
theorem isEmpty_of_saysNothing_mixed :
    let raw := "/** \r\n * \n\t\n*\t\r\n **/"
    SaysNothing raw ∧ raw ≠ "/**/" ∧ (parse raw .start).isEmpty = true := by
  intro raw
  have h : SaysNothing raw := by
    refine ⟨by decide, by decide, ?_⟩
    exact ⟨[' ', '\r'], [[' ', '*', ' '], ['\t'], ['*', '\t', '\r'], [' ', '*']], by decide,
      by decide, by decide⟩
  have hne : raw ≠ "/**/" := by decide
  exact ⟨h, hne, (isEmpty_of_saysNothing h hne .start).2.2.1⟩

/-- Behind the opening delimiter of the shortest comment no star is left for the closing one.
The slash is the description, and its function counts as documented. -/
theorem not_isEmpty_shared :
    SaysNothing "/**/" ∧ (parse "/**/" .start).description = ["/"] ∧
      (parse "/**/" .start).isEmpty = false ∧
      ∀ choice signature,
        Rule.enforceExistence choice ⟨some (parse "/**/" .start), signature⟩ = [] := by
  have h : SaysNothing "/**/" := ⟨by decide, by decide, [], [], by decide, rfl, by simp⟩
  have hempty : (parse "/**/" .start).isEmpty = false := by decide
  refine ⟨h, by decide, hempty, fun choice signature => ?_⟩
  simp [Rule.enforceExistence, hempty]

end DocCheck.Comment
