import DocCheck.Proofs.Comment.Brackets
import DocCheck.Proofs.Comment.Invariant

/-!
# What a tag is made of

A tag keeps its text, and says what it was read as. The two agree: behind the
keyword stands, in this order and with nothing but white space between, the block
of the type, the parameter as it was written, and the description. A block of
braces that never closes is all of the value; a bracket that never closes belongs
to the description.

Results:

* `typePart_cases`, `paramPart_cases`: what the readers of a type and of a name can give.
* `IsRead.exists_parts`: the parts of a value, one behind the other.
* `tag_made_of_parts`: every tag that was read is made of its keyword and these parts.
-/
namespace DocCheck

namespace Keyword

/-- A text that starts a tag is an at sign, the longest keyword behind it, and what follows. -/
theorem eq_of_split {cs written rest : List Char} (h : split? cs = some (written, rest)) :
    cs = '@' :: written ++ rest ∧ written ≠ [] ∧
      (∀ c ∈ written, isKeywordChar c = true) ∧
      ∀ c r, rest = c :: r → isKeywordChar c = false := by
  unfold split? at h
  split at h
  · rename_i r
    dsimp only at h
    split at h
    · cases h
    · rename_i hne
      cases h
      refine ⟨?_, by simpa using hne, fun c hc => List.all_eq_true.mp List.all_takeWhile c hc, ?_⟩
      · rw [List.cons_append, List.takeWhile_append_dropWhile]
      · intro c s hs
        have hd := List.head?_dropWhile_not isKeywordChar r
        rw [hs] at hd
        simpa using hd
  · cases h

theorem tagName_eq (keyword : String) :
    tagName keyword = if keyword = "arg" ∨ keyword = "argument" then "param" else keyword := by
  by_cases h : keyword = "arg" ∨ keyword = "argument" <;> simp [tagName, alias?, h]

end Keyword

namespace Tag

/-! ## The readers of the parts -/

def blockType (block : List Char) : TypeExpr :=
  if (Text.trim (inside block)).isEmpty then .unknown (String.ofList block)
  else TypeExpr.parse (String.ofList block)

/-- No type, or braces that never close, or a block and what follows it. -/
theorem typePart_cases (keyword : String) (text : List Char) :
    typePart keyword text = (none, text) ∨ Keyword.takesType keyword = true ∧
      (Unclosed '{' '}' text ∧
          typePart keyword text = (some (.unknown (String.ofList text)), []) ∨
        ∃ block rest, text = block ++ rest ∧ IsBlock '{' '}' block text ∧
          typePart keyword text = (some (blockType block), Text.trim rest)) := by
  unfold typePart
  split
  · rename_i h
    obtain ⟨hk, hopen⟩ := h
    obtain ⟨cs, rfl⟩ : ∃ cs, text = '{' :: cs := by
      cases text with
      | nil => cases hopen
      | cons c cs =>
        cases hopen
        exact ⟨cs, rfl⟩
    refine .inr ⟨hk, ?_⟩
    cases hscan : closingSplit? '{' '}' 0 ('{' :: cs) with
    | none => exact .inl ⟨unclosed_of_closingSplit (by decide) hscan, rfl⟩
    | some part =>
      obtain ⟨he, hblock⟩ := isBlock_of_closingSplit (by decide) hscan
      exact .inr ⟨part.1, part.2, he, hblock, rfl⟩
  · exact .inl rfl

/-- No name, or a word that is none of the signs that mean something else, or brackets. -/
theorem paramPart_cases (keyword : String) {text : List Char} (htrim : Text.trim text = text) :
    paramPart keyword text = ⟨none, false, text⟩ ∨ Keyword.isParam keyword = true ∧
      ((∃ name rest, text = name ++ rest ∧ name ≠ [] ∧ name ≠ ['-'] ∧ name.head? ≠ some '[' ∧
          (∀ c ∈ name, Text.isBlank c = false) ∧
          paramPart keyword text = ⟨some (String.ofList name), false, Text.trim rest⟩) ∨
        ∃ block rest, text = block ++ rest ∧ IsBlock '[' ']' block text ∧
          paramPart keyword text =
            ⟨nonEmpty? (Text.trim ((inside block).takeWhile (· ≠ '='))), true,
              Text.trim rest⟩) := by
  unfold paramPart
  split
  · rename_i hk
    split
    · exact .inl rfl
    · rename_i cs
      cases hscan : closingSplit? '[' ']' 0 ('[' :: cs) with
      | none => exact .inl rfl
      | some part =>
        obtain ⟨he, hblock⟩ := isBlock_of_closingSplit (by decide) hscan
        exact .inr ⟨hk, .inr ⟨part.1, part.2, he, hblock, rfl⟩⟩
    · rename_i hnil hbracket
      obtain ⟨c, cs, rfl⟩ := List.exists_cons_of_ne_nil hnil
      have hc : Text.isBlank c = false := Text.isBlank_of_trim_eq htrim
      have hspan : Text.spanWord (c :: cs) =
          ((c :: cs).takeWhile (fun d => !Text.isBlank d),
            (c :: cs).dropWhile fun d => !Text.isBlank d) := List.span_eq_takeWhile_dropWhile _ _
      have hword : (c :: cs).takeWhile (fun d => !Text.isBlank d) =
          c :: cs.takeWhile fun d => !Text.isBlank d :=
        List.takeWhile_cons_of_pos (by simp [hc])
      rw [hspan]
      dsimp only
      split
      · exact .inl rfl
      · rename_i hhyphen
        refine .inr ⟨hk, .inl ⟨_, _, List.takeWhile_append_dropWhile.symm, ?_, hhyphen, ?_,
          fun d hd => ?_, rfl⟩⟩
        · rw [hword]
          exact List.cons_ne_nil _ _
        · rw [hword]
          rintro ⟨rfl⟩
          exact hbracket cs rfl
        · simpa using List.all_eq_true.mp List.all_takeWhile d hd
  · exact .inl rfl

/-! ## The parts of a value -/

/-- How the value of a tag is made up of the block of its type, its parameter as it is written and
its description, with white space behind the first two. -/
structure IsMadeOf (t : Tag) (block gap param gap' text : List Char) : Prop where
  value : t.valueText.toList = block ++ gap ++ param ++ gap' ++ text
  blank : ∀ c ∈ gap ++ gap', Text.isBlank c = true
  description : text = (t.description.getD "").toList
  untyped : block = [] ↔ t.type = none
  /-- The shortest block of braces that closes, or all of the value. -/
  typed : t.type ≠ none →
    IsBlock '{' '}' block t.valueText.toList ∧ t.type = some (blockType block) ∨
    Unclosed '{' '}' t.valueText.toList ∧ t.type = some (.unknown t.valueText) ∧
      block = t.valueText.toList ∧ param = [] ∧ text = []
  /-- Nothing, or the name itself, or brackets with the name before the first equals sign. -/
  named :
    (param = [] ∧ t.paramName = none ∧ t.optional = false) ∨
    (param ≠ [] ∧ param.head? ≠ some '[' ∧ t.paramName = some (String.ofList param) ∧
      t.optional = false) ∨
    (IsBlock '[' ']' param (param ++ gap' ++ text) ∧ t.optional = true ∧
      t.paramName = nonEmpty? (Text.trim ((inside param).takeWhile (· ≠ '='))))

/-- The part of a value that makes up the type, and the white space behind it. -/
theorem exists_typeBlock (keyword : String) {value : List Char} (h : Text.trim value = value) :
    ∃ block gap, value = block ++ gap ++ (typePart keyword value).2 ∧
      (∀ c ∈ gap, Text.isBlank c = true) ∧
      (block = [] ↔ (typePart keyword value).1 = none) ∧
      ((typePart keyword value).1 ≠ none →
        IsBlock '{' '}' block value ∧
          (typePart keyword value).1 = some (blockType block) ∨
        Unclosed '{' '}' value ∧ block = value ∧
          typePart keyword value = (some (.unknown (String.ofList value)), [])) := by
  rcases typePart_cases keyword value with he | ⟨-, ⟨hopen, he⟩ | ⟨block, rest, rfl, hblock, he⟩⟩
  · exact ⟨[], [], by simp [he], by simp, by simp [he], by simp [he]⟩
  · refine ⟨value, [], by simp [he], by simp, ?_, fun _ => .inr ⟨hopen, rfl, he⟩⟩
    have hne : value ≠ [] := by
      rintro rfl
      cases hopen.opens
    simp [he, hne]
  · obtain ⟨gap, hgap, hblank⟩ := Text.exists_blanks_of_trim h
    have hne : block ≠ [] := by
      rintro rfl
      cases hblock.opens
    refine ⟨block, gap, ?_, hblank, by simp [he, hne], fun _ => .inl ⟨hblock, by rw [he]⟩⟩
    rw [he, List.append_assoc, ← hgap]

/-- The part of a value that names the parameter, and the white space behind it. -/
theorem exists_paramText (keyword : String) {value : List Char} (h : Text.trim value = value) :
    ∃ param gap, value = param ++ gap ++ (paramPart keyword value).rest ∧
      (∀ c ∈ gap, Text.isBlank c = true) ∧
      ((param = [] ∧ (paramPart keyword value).name = none ∧
          (paramPart keyword value).optional = false) ∨
        (param ≠ [] ∧ param.head? ≠ some '[' ∧
          (paramPart keyword value).name = some (String.ofList param) ∧
          (paramPart keyword value).optional = false) ∨
        (IsBlock '[' ']' param value ∧ (paramPart keyword value).optional = true ∧
          (paramPart keyword value).name =
            nonEmpty? (Text.trim ((inside param).takeWhile (· ≠ '='))))) := by
  rcases paramPart_cases keyword h with he | ⟨-, ⟨name, rest, rfl, hne, -, hopen, -, he⟩ |
      ⟨block, rest, rfl, hblock, he⟩⟩
  · exact ⟨[], [], by simp [he], by simp, .inl (by simp [he])⟩
  · obtain ⟨gap, hgap, hblank⟩ := Text.exists_blanks_of_trim h
    refine ⟨name, gap, ?_, hblank, .inr (.inl ⟨hne, hopen, by rw [he], by rw [he]⟩)⟩
    rw [he, List.append_assoc, ← hgap]
  · obtain ⟨gap, hgap, hblank⟩ := Text.exists_blanks_of_trim h
    refine ⟨block, gap, ?_, hblank, .inr (.inr ⟨hblock, by rw [he], by rw [he]⟩)⟩
    rw [he, List.append_assoc, ← hgap]

theorem trim_snd_typePart (keyword : String) {value : List Char} (h : Text.trim value = value) :
    Text.trim (typePart keyword value).2 = (typePart keyword value).2 := by
  rcases typePart_cases keyword value with he | ⟨-, ⟨-, he⟩ | ⟨_, _, -, -, he⟩⟩
  · rw [he, h]
  · rw [he]
    rfl
  · rw [he, Text.trim_trim]

theorem getD_nonEmpty (cs : List Char) : ((nonEmpty? cs).getD "").toList = cs := by
  cases cs <;> simp [nonEmpty?]

theorem nonEmpty_ne (cs : List Char) : nonEmpty? cs ≠ some "" := by
  cases cs with
  | nil => simp [nonEmpty?]
  | cons c cs =>
    intro h
    simp [nonEmpty?] at h

theorem IsMadeOf.paramName_ne {t : Tag} {block gap param gap' text : List Char}
    (h : t.IsMadeOf block gap param gap' text) : t.paramName ≠ some "" := by
  rcases h.named with ⟨-, hname, -⟩ | ⟨hne, -, hname, -⟩ | ⟨-, -, hname⟩
  · simp [hname]
  · simpa [hname] using hne
  · rw [hname]
    exact nonEmpty_ne _

namespace IsRead

variable {t : Tag} (h : t.IsRead)
include h

theorem trim_valueText : Text.trim t.valueText.toList = t.valueText.toList := by
  obtain ⟨written, rest, hsplit, -⟩ := h.exists_split
  rw [(keyword_of_split hsplit).2, String.toList_ofList, Text.trim_trim]

/-- The parts of the value of a tag that was read. -/
theorem exists_parts :
    ∃ block gap param gap' text, t.IsMadeOf block gap param gap' text := by
  obtain ⟨-, htype, hname, hoptional, hdescription⟩ := h.eq_parts
  obtain ⟨block, gap, hvalue, hgap, huntyped, htyped⟩ :=
    exists_typeBlock t.keyword h.trim_valueText
  obtain ⟨param, gap', hrest, hgap', hnamed⟩ :=
    exists_paramText t.keyword (trim_snd_typePart t.keyword h.trim_valueText)
  generalize typePart t.keyword t.valueText.toList = part at *
  generalize paramPart t.keyword part.2 = name at *
  refine ⟨block, gap, param, gap', name.rest, ⟨?_, ?_, ?_, ?_, ?_, ?_⟩⟩
  · rw [hvalue, hrest]
    simp
  · intro c hc
    rcases List.mem_append.mp hc with hc | hc
    · exact hgap c hc
    · exact hgap' c hc
  · rw [hdescription, getD_nonEmpty]
  · rw [htype, huntyped]
  · intro hne
    rw [htype] at hne ⊢
    rcases htyped hne with hclosed | ⟨hopen, hblock, he⟩
    · exact .inl hclosed
    · -- nothing is left for the parameter and the description
      have hnil : part.2 = [] := by rw [he]
      rw [hnil] at hrest
      have hparts := List.append_eq_nil_iff.mp hrest.symm
      exact .inr ⟨hopen, by rw [he, String.ofList_toList], hblock,
        (List.append_eq_nil_iff.mp hparts.1).1, hparts.2⟩
  · rw [hname, hoptional, ← hrest]
    exact hnamed

end IsRead

/-- The text of a tag that was read starts with an at sign and the longest keyword behind it; the
name of the tag is this keyword in lower case, but for the other spellings of `param`, and the rest
is its value. The value is made up of what the tag says, part by part. Only keywords that take a
type have one, and only tags of parameters have a name; a name or a description is never empty. -/
theorem tag_made_of_parts {raw : String} {start : Location} {t : Tag}
    (h : t ∈ (Comment.parse raw start).tags) :
    (∃ written rest, t.raw.toList = '@' :: written ++ rest ∧ written ≠ [] ∧
      (∀ c ∈ written, Keyword.isKeywordChar c = true) ∧
      (∀ c r, rest = c :: r → Keyword.isKeywordChar c = false) ∧
      t = parse ('@' :: written ++ rest) t.location ∧
      t.keyword = Text.lower (String.ofList written) ∧
      t.valueText = String.ofList (Text.trim rest)) ∧
    t.name =
      (if t.keyword = "arg" ∨ t.keyword = "argument" then "param" else t.keyword) ∧
    (∃ block gap param gap' text, t.IsMadeOf block gap param gap' text) ∧
    (t.type ≠ none → Keyword.takesType t.keyword = true) ∧
    (t.name ≠ "param" → t.paramName = none ∧ t.optional = false) ∧
    t.paramName ≠ some "" ∧ t.description ≠ some "" := by
  have hread := (Comment.isRead_parse raw start).tags t h
  obtain ⟨hname, htype, hparam, hoptional, hdescription⟩ := hread.eq_parts
  refine ⟨?_, by rw [hname, Keyword.tagName_eq], hread.exists_parts, fun hne => ?_, fun hne => ?_,
    ?_, by rw [hdescription]; exact nonEmpty_ne _⟩
  · obtain ⟨written, rest, hsplit, -⟩ := hread.exists_split
    obtain ⟨hraw, hnonempty, hchars, hend⟩ := Keyword.eq_of_split hsplit
    obtain ⟨hkeyword, hvalue⟩ := keyword_of_split hsplit
    refine ⟨written, rest, hraw, hnonempty, hchars, hend, ?_, hkeyword, hvalue⟩
    rw [← hraw, hread.parse t.location]
  · rw [htype] at hne
    rcases typePart_cases t.keyword t.valueText.toList with he | ⟨hk, -⟩
    · rw [he] at hne
      exact absurd rfl hne
    · exact hk
  · have htrim := trim_snd_typePart t.keyword hread.trim_valueText
    rw [hparam, hoptional]
    rcases paramPart_cases t.keyword htrim with he | ⟨hk, -⟩
    · rw [he]
      exact ⟨rfl, rfl⟩
    · exact absurd (hname.trans (Keyword.tagName_of_isParam hk)) hne
  · obtain ⟨block, gap, param, gap', text, hparts⟩ := hread.exists_parts
    exact hparts.paramName_ne

/-- A type with nested braces, a name in brackets with a default, and a description of two lines. -/
theorem tag_made_of_parts_default :
    let d := Comment.parse "/**\n * @Arg {{a: *}} [b = \x7d] - the\n *   sum */" .start
    ∃ t ∈ d.tags, t.raw = "@Arg {{a: *}} [b = \x7d] - the\nsum" ∧ t.name = "param" ∧
      t.keyword = "arg" ∧ t.paramName = some "b" ∧ t.description = some "- the\nsum" ∧
      Keyword.takesType t.keyword = true ∧
      ∃ block gap param gap' text, t.IsMadeOf block gap param gap' text := by
  intro d
  obtain ⟨t, ht, htag⟩ : ∃ t ∈ d.tags, (t.raw, t.keyword, t.type.isSome, t.paramName,
      t.description) = ("@Arg {{a: *}} [b = \x7d] - the\nsum", "arg", true, some "b",
        some "- the\nsum") := by
    refine List.mem_map.mp ?_
    have htags : d.tags.map (fun t => (t.raw, t.keyword, t.type.isSome, t.paramName,
        t.description)) = [("@Arg {{a: *}} [b = \x7d] - the\nsum", "arg", true, some "b",
          some "- the\nsum")] := by
      decide +kernel
    rw [htags]
    exact List.mem_cons_self
  simp only [Prod.mk.injEq] at htag
  obtain ⟨hraw, hkeyword, htype, hname, hdescription⟩ := htag
  obtain ⟨-, hfold, hparts, htakes, -⟩ := tag_made_of_parts ht
  refine ⟨t, ht, hraw, by rw [hfold, hkeyword]; rfl, hkeyword, hname, hdescription, htakes ?_,
    hparts⟩
  intro hnone
  rw [hnone] at htype
  cases htype

end Tag

end DocCheck
