import DocCheck.Proofs.Comment.TagType

/-!
# Tags of parameters in writing

A tag of a parameter is written as keyword, type, name and description, with a
space between each two. The reader finds each part again where the one before it
ends: the keyword at the first space, the type behind the brace that closes it, a
plain name at the next white space, a name in brackets behind the bracket that
closes it. So braces, brackets, hyphens and line feeds may stand in each part, as
far as they nest where they are counted.

Results:

* `paramPart_word`, `paramPart_brackets`: a name is read, plain or in brackets.
* `parse_typed`, `parse_untyped`: a tag with and without a type, from its name.
* `param_read_back`: what is written is read back.
-/
namespace DocCheck

/-! ## Keywords in any letter case -/

theorem Text.isAlpha_of_isLower_toLower {c : Char} (h : c.toLower.isLower = true) :
    c.isAlpha = true := by
  unfold Char.toLower at h
  split at h
  · rename_i hupper
    exact (Bool.or_eq_true c.isUpper c.isLower).mpr (.inl (decide_eq_true hupper))
  · exact (Bool.or_eq_true c.isUpper c.isLower).mpr (.inr h)

theorem Text.toList_toLower (s : String) : s.toLower.toList = s.toList.map Char.toLower :=
  String.toList_map

namespace Keyword

/-- The word introduces a parameter, in whatever letter case it is written. -/
def IsParamWord (written : String) : Prop := written.toLower ∈ ["param", "arg", "argument"]

instance (written : String) : Decidable (IsParamWord written) :=
  inferInstanceAs (Decidable (_ ∈ _))

namespace IsParamWord

variable {written : String} (h : IsParamWord written)
include h

theorem isLower : ∀ c ∈ written.toLower.toList, c.isLower = true := by
  have hall : ∀ word ∈ ["param", "arg", "argument"], word.toList.all Char.isLower = true := by
    decide +kernel
  exact List.all_eq_true.mp (hall _ h)

theorem isAlphanum {c : Char} (hc : c ∈ written.toList) : c.isAlphanum = true := by
  have hlower : c.toLower ∈ written.toLower.toList := by
    rw [Text.toList_toLower]
    exact List.mem_map_of_mem hc
  have halpha := Text.isAlpha_of_isLower_toLower (h.isLower _ hlower)
  exact (Bool.or_eq_true c.isAlpha c.isDigit).mpr (.inl halpha)

theorem isKeywordChar : ∀ c ∈ written.toList, Keyword.isKeywordChar c = true := by
  intro c hc
  rw [Keyword.isKeywordChar, Text.isWord_of_isAlphanum c (h.isAlphanum hc), Bool.true_or]

theorem toList_ne_nil : written.toList ≠ [] := by
  intro hnil
  obtain rfl : written = "" := String.toList_eq_nil_iff.mp hnil
  exact absurd h (by decide +kernel)

theorem lower_eq : Text.lower written = written.toLower := by
  rw [Text.lower_ascii written fun c hc => Text.toNat_lt_of_isAlphanum (h.isAlphanum hc),
    ← String.toList_inj, String.toList_ofList, Text.toList_toLower]

theorem isParam : isParam written.toLower = true := List.contains_iff_mem.mpr h

end IsParamWord

end Keyword

/-! ## Words and white space -/

namespace Text

/-- A word stays whole when the text that it starts is trimmed. -/
theorem trim_word {word : List Char} (hne : word ≠ []) (h : ∀ c ∈ word, isBlank c = false)
    (rest : List Char) : trim (word ++ rest) = word ++ trimEnd rest := by
  obtain ⟨init, last, rfl⟩ := (List.eq_nil_or_concat' word).resolve_left hne
  have hlast : isBlank last = false := h last (by simp)
  have hstart : trimStart (init ++ [last] ++ rest) = init ++ [last] ++ rest := by
    refine dropWhile_eq_self fun c r hc => h c ?_
    cases init with
    | nil =>
      cases hc
      simp
    | cons d init =>
      cases hc
      simp
  rw [trim, hstart, List.append_assoc, List.singleton_append, trimEnd_append_cons hlast,
    List.append_assoc, List.singleton_append]

theorem spanWord_append {word rest : List Char} (h : ∀ c ∈ word, isBlank c = false)
    (hr : ∀ c r, rest = c :: r → isBlank c = true) : spanWord (word ++ rest) = (word, rest) := by
  have htake : rest.takeWhile (fun c => !isBlank c) = [] := by
    cases rest with
    | nil => rfl
    | cons c r => simp [hr c r rfl]
  have hdrop : rest.dropWhile (fun c => !isBlank c) = rest := by
    cases rest with
    | nil => rfl
    | cons c r => simp [hr c r rfl]
  have hword : ∀ c ∈ word, (!isBlank c) = true := fun c hc => by simp [h c hc]
  rw [spanWord, List.span_eq_takeWhile_dropWhile, List.takeWhile_append_of_pos hword,
    List.dropWhile_append_of_pos hword, htake, hdrop, List.append_nil]

/-- What follows a space is the space, or nothing if all of it is white space. -/
theorem isBlank_of_trimEnd_space {cs r : List Char} {c : Char}
    (h : trimEnd (' ' :: cs) = c :: r) : isBlank c = true := by
  have hp := trimEnd_prefix (' ' :: cs)
  rw [h, List.cons_prefix_cons] at hp
  rw [hp.1]
  decide

theorem trim_trimEnd_space {cs : List Char} (h : trim cs = cs) :
    trim (trimEnd (' ' :: cs)) = cs := by
  rw [trim_trimEnd, trim_blank_cons (by decide), h]

end Text

/-! ## Names of parameters -/

namespace Tag

/-- A plain name ends at white space. -/
theorem paramPart_word {keyword : String} (hk : Keyword.isParam keyword = true)
    {word rest : List Char} (hne : word ≠ []) (h : ∀ c ∈ word, Text.isBlank c = false)
    (hhyphen : word ≠ ['-']) (hbracket : word.head? ≠ some '[')
    (hr : ∀ c r, rest = c :: r → Text.isBlank c = true) :
    paramPart keyword (word ++ rest) = ⟨some (String.ofList word), false, Text.trim rest⟩ := by
  unfold paramPart
  rw [if_pos hk]
  split
  · rename_i he
    exact absurd (List.append_eq_nil_iff.mp he).1 hne
  · rename_i he
    rw [← List.head?_append_of_ne_nil word hne, he] at hbracket
    exact absurd rfl hbracket
  · simp only [Text.spanWord_append h hr, if_neg hhyphen]

/-- A name in brackets ends with the bracket that closes the first one, and before a default. -/
theorem paramPart_brackets {keyword : String} (hk : Keyword.isParam keyword = true)
    {cs : List Char} (h : Nests '[' ']' cs) (rest : List Char) :
    paramPart keyword ('[' :: cs ++ ']' :: rest) =
      ⟨nonEmpty? (Text.trim (cs.takeWhile (· ≠ '='))), true, Text.trim rest⟩ := by
  have hscan := closingSplit_block (by decide) h rest
  have hinside : inside ('[' :: cs ++ [']']) = cs := by simp [inside]
  rw [List.cons_append] at hscan ⊢
  simp only [paramPart, if_pos hk, hscan, hinside]

/-! ## Written tags -/

/-- The text of a type in braces: not blank, and with its braces nested. -/
structure IsTypeText (type : String) : Prop where
  nests : Nests '{' '}' type.toList
  full : Text.trim type.toList ≠ []

/-- A name that needs no brackets: a word, but no hyphen, and not one that opens with a bracket. -/
structure IsPlainName (name : String) : Prop where
  full : name.toList ≠ []
  word : ∀ c ∈ name.toList, Text.isBlank c = false
  hyphen : name ≠ "-"
  bracket : name.toList.head? ≠ some '['

/-- A name that may stand before the default of a parameter. -/
structure IsOptionalName (name : String) : Prop where
  full : name.toList ≠ []
  trim : Text.trim name.toList = name.toList
  equals : '=' ∉ name.toList

/-- A tag of a parameter in writing; the name may be in brackets, with a default. -/
def writeParam (keyword : String) (type : Option String) (name description : String) : String :=
  "@" ++ keyword ++ (type.elim "" fun type => " \x7b" ++ type ++ "\x7d") ++ " " ++ name ++ " " ++
    description

def ofParam (text : String) (place : Location) (type : Option TypeExpr) (name : String)
    (optional : Bool) (description : String) : Tag :=
  ⟨"param", text, place, type, some name, optional,
    if description = "" then none else some description⟩

section

variable {keyword : String} (hk : Keyword.IsParamWord keyword)
include hk

theorem parse_of_isParamWord (text : List Char) (place : Location) :
    parse ('@' :: keyword.toList ++ ' ' :: text) place =
      let type := typePart keyword.toLower (Text.trim text)
      let param := paramPart keyword.toLower type.2
      ⟨"param", String.ofList ('@' :: keyword.toList ++ ' ' :: text), place, type.1, param.name,
        param.optional, nonEmpty? param.rest⟩ := by
  unfold parse
  rw [Keyword.split_word hk.toList_ne_nil hk.isKeywordChar]
  simp only [String.ofList_toList, hk.lower_eq, Keyword.tagName_of_isParam hk.isParam,
    Text.trim_blank_cons (show Text.isBlank ' ' = true by decide)]

variable {shown name description : String} {optional : Bool}
  (hname : paramPart keyword.toLower (Text.trim (shown.toList ++ ' ' :: description.toList)) =
    ⟨some name, optional, description.toList⟩)
include hname

/-- A tag with a type, when the name is read from what follows the type. -/
theorem parse_typed {type : String} (ht : IsTypeText type) (place : Location) :
    let text := writeParam keyword (some type) shown description
    parse text.toList place = ofParam text place
      (some (TypeExpr.parse ("\x7b" ++ type ++ "\x7d"))) name optional description := by
  have hwritten : (writeParam keyword (some type) shown description).toList =
      '@' :: keyword.toList ++ ' ' :: ('{' :: type.toList ++ '}' :: ' ' ::
        (shown.toList ++ ' ' :: description.toList)) := by
    simp [writeParam]
  have hbraces : String.ofList ('{' :: type.toList ++ ['}']) = "\x7b" ++ type ++ "\x7d" := by
    rw [← String.toList_inj]
    simp
  have htrim (cs : List Char) : Text.trim (Text.trimEnd (' ' :: cs)) = Text.trim cs := by
    rw [Text.trim_trimEnd, Text.trim_blank_cons (by decide)]
  intro text
  rw [ofParam, hwritten, parse_of_isParamWord hk, ← hwritten,
    Text.trim_block (by decide) (by decide),
      typePart_block (Keyword.takesType_of_isParam hk.isParam) ht.nests ht.full]
  simp only [htrim, hname, hbraces, nonEmpty_toList, String.ofList_toList, text]

/-- A tag without a type, when what stands first is no brace. -/
theorem parse_untyped (hbrace : shown.toList.head? ≠ some '{') (hshown : shown.toList ≠ [])
    (hword : ∀ c ∈ shown.toList, Text.isBlank c = false) (place : Location) :
    let text := writeParam keyword none shown description
    parse text.toList place = ofParam text place none name optional description := by
  have hwritten : (writeParam keyword none shown description).toList =
      '@' :: keyword.toList ++ ' ' :: (shown.toList ++ ' ' :: description.toList) := by
    simp [writeParam]
  have htype : typePart keyword.toLower (Text.trim (shown.toList ++ ' ' :: description.toList)) =
      (none, Text.trim (shown.toList ++ ' ' :: description.toList)) := by
    refine if_neg fun h => hbrace ?_
    rw [← h.2, Text.trim_word hshown hword, List.head?_append_of_ne_nil _ hshown]
  intro text
  rw [ofParam, hwritten, parse_of_isParamWord hk, ← hwritten]
  simp only [htype, hname, nonEmpty_toList, String.ofList_toList, text]

end

theorem paramPart_plain {keyword : String} (hk : Keyword.isParam keyword = true) {name : String}
    (h : IsPlainName name) {description : String}
    (hd : Text.trim description.toList = description.toList) :
    paramPart keyword (Text.trim (name.toList ++ ' ' :: description.toList)) =
      ⟨some name, false, description.toList⟩ := by
  have hhyphen : name.toList ≠ ['-'] := fun he => h.hyphen (String.toList_inj.mp he)
  rw [Text.trim_word h.full h.word, paramPart_word hk h.full h.word hhyphen h.bracket
    fun _ _ => Text.isBlank_of_trimEnd_space, Text.trim_trimEnd_space hd, String.ofList_toList]

/-- What is read of brackets that hold a name, and what follows the name. -/
theorem paramPart_optional {keyword : String} (hk : Keyword.isParam keyword = true) {name : String}
    (h : IsOptionalName name) {tail : List Char} (htail : ∀ c r, tail = c :: r → c = '=')
    (hn : Nests '[' ']' (name.toList ++ tail)) {description : String}
    (hd : Text.trim description.toList = description.toList) :
    paramPart keyword (Text.trim ('[' :: (name.toList ++ tail) ++ ']' :: ' ' ::
      description.toList)) = ⟨some name, true, description.toList⟩ := by
  have htake : (name.toList ++ tail).takeWhile (· ≠ '=') = name.toList := by
    have hname : ∀ c ∈ name.toList, decide (c ≠ '=') = true := by
      intro c hc
      refine decide_eq_true ?_
      rintro rfl
      exact h.equals hc
    rw [List.takeWhile_append_of_pos hname]
    cases tail with
    | nil => simp
    | cons c r => simp [htail c r rfl]
  have hfull : nonEmpty? name.toList = some name := by
    rw [nonEmpty_toList, if_neg fun he => h.full (by rw [he]; rfl)]
  rw [Text.trim_block (by decide) (by decide), paramPart_brackets hk hn, htake, h.trim, hfull,
    Text.trim_trimEnd_space hd]

/-- A tag of a parameter is read back from its parts: the type between braces, a plain name with
or without a type before it, and a name in brackets with or without a default. -/
theorem param_read_back {keyword description : String} (hk : Keyword.IsParamWord keyword)
    (hd : Text.trim description.toList = description.toList) (place : Location) :
    (∀ type name : String, IsTypeText type → IsPlainName name →
      let text := writeParam keyword (some type) name description
      parse text.toList place = ofParam text place
        (some (TypeExpr.parse ("\x7b" ++ type ++ "\x7d"))) name false description) ∧
    (∀ name : String, IsPlainName name → name.toList.head? ≠ some '{' →
      let text := writeParam keyword none name description
      parse text.toList place = ofParam text place none name false description) ∧
    ∀ type name : String, IsTypeText type → IsOptionalName name →
      (∀ default : String, Nests '[' ']' (name ++ "=" ++ default).toList →
        let text :=
          writeParam keyword (some type) ("[" ++ name ++ "=" ++ default ++ "]") description
        parse text.toList place = ofParam text place
          (some (TypeExpr.parse ("\x7b" ++ type ++ "\x7d"))) name true description) ∧
      (Nests '[' ']' name.toList →
        let text := writeParam keyword (some type) ("[" ++ name ++ "]") description
        parse text.toList place = ofParam text place
          (some (TypeExpr.parse ("\x7b" ++ type ++ "\x7d"))) name true description) := by
  refine ⟨fun type name ht hn => parse_typed hk (paramPart_plain hk.isParam hn hd) ht place,
    fun name hn hbrace => parse_untyped hk (paramPart_plain hk.isParam hn hd) hbrace hn.full
      hn.word place, fun type name ht hn => ⟨fun default hnests => ?_, fun hnests => ?_⟩⟩
  · have hshown : ("[" ++ name ++ "=" ++ default ++ "]").toList ++ ' ' :: description.toList =
        '[' :: (name.toList ++ '=' :: default.toList) ++ ']' :: ' ' :: description.toList := by
      simp
    refine parse_typed hk ?_ ht place
    rw [hshown]
    refine paramPart_optional hk.isParam hn ?_ (by simpa using hnests) hd
    rintro c r ⟨rfl⟩
    rfl
  · have hshown : ("[" ++ name ++ "]").toList ++ ' ' :: description.toList =
        '[' :: (name.toList ++ []) ++ ']' :: ' ' :: description.toList := by
      simp
    refine parse_typed hk ?_ ht place
    rw [hshown]
    exact paramPart_optional hk.isParam hn (by simp) (by simpa using hnests) hd

/-- A record as the type and a default with brackets of its own, and a plain name that holds a
brace, with and without the type. -/
theorem param_read_back_default :
    let record := some (TypeExpr.parse "{{a: number}}")
    let typed := "@ARG {{a: number}} [o=[1, 2]] - the \x7d"
    let plain := "@ARG {{a: number}} o{ - the }"
    let untyped := "@ARG o{ - the }"
    Keyword.IsParamWord "ARG" ∧ Text.trim "- the \x7d".toList = "- the \x7d".toList ∧
      IsTypeText "{a: number}" ∧ IsOptionalName "o" ∧ Nests '[' ']' "o=[1, 2]".toList ∧
      IsPlainName "o\x7b" ∧
      parse typed.toList .start = ofParam typed .start record "o" true "- the \x7d" ∧
      parse plain.toList .start = ofParam plain .start record "o\x7b" false "- the \x7d" ∧
      parse untyped.toList .start = ofParam untyped .start none "o\x7b" false "- the \x7d" := by
  have hk : Keyword.IsParamWord "ARG" := by decide +kernel
  have hd : Text.trim "- the \x7d".toList = "- the \x7d".toList := by decide +kernel
  have ht : IsTypeText "{a: number}" := ⟨by decide +kernel, by decide +kernel⟩
  have ho : IsOptionalName "o" := ⟨by decide, by decide +kernel, by decide⟩
  have hnests : Nests '[' ']' "o=[1, 2]".toList := by decide +kernel
  have hword : "o\x7b".toList.all (fun c => !Text.isBlank c) = true := by decide
  have hp : IsPlainName "o\x7b" := by
    refine ⟨by decide, fun c hc => ?_, by decide, by decide⟩
    simpa using List.all_eq_true.mp hword c hc
  have hbraces : "\x7b" ++ "{a: number}" ++ "\x7d" = "{{a: number}}" := by decide
  have hshown : "[" ++ "o" ++ "=" ++ "[1, 2]" ++ "]" = "[o=[1, 2]]" := by decide
  have htyped : writeParam "ARG" (some "{a: number}") "[o=[1, 2]]" "- the \x7d" =
      "@ARG {{a: number}} [o=[1, 2]] - the \x7d" := by decide +kernel
  have hplain : writeParam "ARG" (some "{a: number}") "o\x7b" "- the \x7d" =
      "@ARG {{a: number}} o{ - the }" := by decide +kernel
  have huntyped : writeParam "ARG" none "o\x7b" "- the \x7d" = "@ARG o{ - the }" := by
    decide +kernel
  obtain ⟨hword, hbare, hbrackets⟩ := param_read_back hk hd .start
  have hoptional := (hbrackets "{a: number}" "o" ht ho).1 "[1, 2]" hnests
  have hnamed := hword "{a: number}" "o\x7b" ht hp
  have hunnamed := hbare "o\x7b" hp (by decide)
  simp only [hbraces, hshown, htyped] at hoptional
  simp only [hbraces, hplain] at hnamed
  simp only [huntyped] at hunnamed
  exact ⟨hk, hd, ht, ho, hnests, hp, hoptional, hnamed, hunnamed⟩

end Tag

end DocCheck
