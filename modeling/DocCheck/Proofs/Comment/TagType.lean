import DocCheck.Proofs.Comment.Brackets
import DocCheck.Proofs.TypeExpr.RoundTrip

/-!
# Types in tags

A tag finds the end of its type by counting braces, without reading the type. The
grammar of types keeps braces in pairs, so no accepted type closes a brace that it
did not open, and the brace that ends the count is the one behind the type.

Results:

* `Derives.depth`: a part of a type leaves as many braces open as it found.
* `closingSplit_braces`: the count of braces ends behind the type.
* `typed_tag`: what stands between the braces of a tag is read as the same text alone is.
-/
namespace DocCheck

/-! ## Counting braces -/

namespace TypeExpr

/-- The braces still open behind a run of braces, `true` for one that opens; nothing when one
closes that was not opened. -/
def openAfter? : Nat → List Bool → Option Nat
  | n, [] => some n
  | n, true :: bs => openAfter? (n + 1) bs
  | 0, false :: _ => none
  | n + 1, false :: bs => openAfter? n bs

def brace? (c : Char) : Option Bool :=
  if c = '{' then some true else if c = '}' then some false else none

def Token.brace? : Token → Option Bool
  | .mark .openBrace => some true
  | .mark .closeBrace => some false
  | _ => none

/-- The braces still open behind a text. -/
def depth? (n : Nat) (cs : List Char) : Option Nat := openAfter? n (cs.filterMap brace?)

def tokenDepth? (n : Nat) (ts : List Token) : Option Nat :=
  openAfter? n (ts.filterMap Token.brace?)

theorem brace_eq_none {c : Char} (hopen : c ≠ '{') (hclose : c ≠ '}') : brace? c = none := by
  rw [brace?, if_neg hopen, if_neg hclose]

theorem brace_of_isBlank {c : Char} (h : Text.isBlank c = true) : brace? c = none := by
  apply brace_eq_none <;> rintro rfl <;> exact absurd h (by decide)

theorem brace_of_continuesIdent {c : Char} (h : continuesIdent c = true) : brace? c = none := by
  apply brace_eq_none <;> rintro rfl <;> exact absurd h (by decide)

theorem filterMap_spelling (m : Mark) :
    m.spelling.filterMap brace? = (Token.brace? (.mark m)).toList := by
  cases m <;> rfl

/-- The braces of a text are those among its tokens. -/
theorem filterMap_tokenize {cs : List Char} {ts : List Token} (h : tokenize cs = some ts) :
    cs.filterMap brace? = ts.filterMap Token.brace? := by
  fun_induction tokenize cs generalizing ts with
  | case1 =>
    cases h
    rfl
  | case2 c r hc ih => rw [List.filterMap_cons, brace_of_isBlank hc, ih h]
  | case3 c r hc hs name =>
    rename_i ih
    obtain ⟨ts', h', rfl⟩ := Option.map_eq_some_iff.mp h
    have hword : (r.takeWhile continuesIdent).filterMap brace? = [] :=
      List.filterMap_eq_nil_iff.mpr fun d hd =>
        brace_of_continuesIdent (List.all_eq_true.mp List.all_takeWhile d hd)
    calc (c :: r).filterMap brace?
        = r.filterMap brace? := by
          rw [List.filterMap_cons, brace_of_continuesIdent (continuesIdent_of_startsIdent hs)]
      _ = (r.takeWhile continuesIdent ++ r.dropWhile continuesIdent).filterMap brace? := by
          rw [List.takeWhile_append_dropWhile]
      _ = ts'.filterMap Token.brace? := by rw [List.filterMap_append, hword, ih h']; rfl
      _ = (Token.ident name :: ts').filterMap Token.brace? := rfl
  | case4 c r hc hs m rest hp ih =>
    obtain ⟨ts', h', rfl⟩ := Option.map_eq_some_iff.mp h
    rw [punctuation_spelling hp, List.filterMap_append, filterMap_spelling, ih h',
      List.filterMap_cons]
    cases Token.brace? (.mark m) <;> rfl
  | case5 => cases h

/-! ## Braces of derivations -/

theorem tokenDepth_ident (n : Nat) (name : String) (ts : List Token) :
    tokenDepth? n (.ident name :: ts) = tokenDepth? n ts := rfl

theorem tokenDepth_open (n : Nat) (ts : List Token) :
    tokenDepth? n (.mark .openBrace :: ts) = tokenDepth? (n + 1) ts := rfl

theorem tokenDepth_close (n : Nat) (ts : List Token) :
    tokenDepth? (n + 1) (.mark .closeBrace :: ts) = tokenDepth? n ts := rfl

theorem tokenDepth_mark {m : Mark} (h : m ≠ .openBrace ∧ m ≠ .closeBrace) (n : Nat)
    (ts : List Token) : tokenDepth? n (.mark m :: ts) = tokenDepth? n ts := by
  have hm : Token.brace? (.mark m) = none := by
    cases m <;> first | rfl | exact absurd rfl h.1 | exact absurd rfl h.2
  rw [tokenDepth?, List.filterMap_cons, hm]
  rfl

theorem Dotted.depth {parts : List String} {ts rest : List Token} (h : Dotted parts ts rest)
    (n : Nat) : tokenDepth? n ts = tokenDepth? n rest := by
  induction h with
  | last => rfl
  | dot h ih => rw [tokenDepth_ident, tokenDepth_mark (by decide), ih]

/-- A part of a type leaves as many braces open as it found. -/
theorem Derives.depth {p : Part} {t : p.Tree} {ts rest : List Token} (h : Derives p t ts rest)
    (n : Nat) : tokenDepth? n ts = tokenDepth? n rest := by
  induction h generalizing n
  case emptyRecord => rfl
  case record h hs ih ihs => rw [tokenDepth_open, ih, ihs, tokenDepth_close]
  case name h => exact h.depth n
  case applied h hm ht hs iht ihs =>
    rw [h.depth n]
    rcases hm with rfl | rfl <;>
      rw [tokenDepth_mark (by decide), iht, ihs, tokenDepth_mark (by decide)]
  -- the other rules have no braces of their own
  all_goals simp (disch := decide) only [tokenDepth_ident, tokenDepth_mark, *]

/-- A text that is read as a type closes the braces it opens, and no other. -/
theorem depth_of_ofText {cs : List Char} {t : TypeExpr} (h : ofText? cs = some t) (n : Nat) :
    depth? n cs = some n := by
  obtain ⟨ts, hts, ht⟩ := Option.bind_eq_some_iff.mp h
  rw [depth?, filterMap_tokenize hts]
  exact (derives_of_ofTokens ht).depth n

theorem ne_nil_of_ofText {cs : List Char} {t : TypeExpr} (h : ofText? cs = some t) : cs ≠ [] := by
  rintro rfl
  obtain ⟨ts, hts, ht⟩ := Option.bind_eq_some_iff.mp h
  rw [tokenize] at hts
  cases hts
  exact absurd (derives_of_ofTokens ht).length_le (by decide)

end TypeExpr

/-! ## The end of a type in a tag -/

namespace Tag

/-- A count of braces that never falls below the start of the text. -/
theorem count_of_depth {n m : Nat} {cs : List Char} (h : TypeExpr.depth? n cs = some m) :
    cs.count '{' + n = cs.count '}' + m ∧
      ∀ p, p <+: cs → p.count '}' ≤ p.count '{' + n := by
  induction cs generalizing n with
  | nil =>
    cases h
    exact ⟨rfl, fun p hp => by simp [List.prefix_nil.mp hp]⟩
  | cons c cs ih =>
    -- the depth behind the first character
    obtain ⟨k, hk, hstep⟩ : ∃ k, TypeExpr.depth? k cs = some m ∧
        [c].count '{' + n = [c].count '}' + k := by
      by_cases hopen : c = '{'
      · subst hopen
        exact ⟨n + 1, h, by simp [Nat.add_comm]⟩
      · by_cases hclose : c = '}'
        · subst hclose
          cases n with
          | zero => cases h
          | succ n => exact ⟨n, h, by simp [Nat.add_comm]⟩
        · rw [TypeExpr.depth?, List.filterMap_cons, TypeExpr.brace_eq_none hopen hclose] at h
          exact ⟨n, h, by simp [hopen, hclose]⟩
    obtain ⟨hsettled, hsane⟩ := ih hk
    refine ⟨?_, fun p hp => ?_⟩
    · rw [count_cons_eq _ c cs, count_cons_eq _ c cs]
      omega
    · rcases List.prefix_cons_iff.mp hp with rfl | ⟨q, rfl, hq⟩
      · simp
      · have := hsane q hq
        rw [count_cons_eq _ c q, count_cons_eq _ c q]
        omega

/-- A text that is read as a type has its braces nested. -/
theorem nests_of_ofText {cs : List Char} {t : TypeExpr} (h : TypeExpr.ofText? cs = some t) :
    Nests '{' '}' cs := by
  obtain ⟨hsettled, hsane⟩ := count_of_depth (TypeExpr.depth_of_ofText h 0)
  exact ⟨hsane, hsettled⟩

/-- The count of braces ends behind a text that is read as a type. -/
theorem closingSplit_braces {cs : List Char} {t : TypeExpr} (h : TypeExpr.ofText? cs = some t)
    (rest : List Char) :
    closingSplit? '{' '}' 0 ('{' :: cs ++ '}' :: rest) =
      some ('{' :: cs ++ ['}'], rest) :=
  closingSplit_block (by decide) (nests_of_ofText h) rest

/-- A text with nested braces, which is not blank, is the type between its braces. -/
theorem typePart_block {keyword : String} (hk : Keyword.takesType keyword = true)
    {cs : List Char} (h : Nests '{' '}' cs) (hne : Text.trim cs ≠ []) (rest : List Char) :
    typePart keyword ('{' :: cs ++ '}' :: rest) =
      (some (TypeExpr.parse (String.ofList ('{' :: cs ++ ['}']))), Text.trim rest) := by
  have hinside : inside ('{' :: cs ++ ['}']) = cs := by simp [inside]
  rw [typePart, if_pos ⟨hk, rfl⟩, closingSplit_block (by decide) h]
  simp only [hinside, if_neg (show ¬ (Text.trim cs).isEmpty = true by simpa using hne)]

theorem typePart_braces {keyword : String} (hk : Keyword.takesType keyword = true)
    {cs : List Char} {t : TypeExpr} (h : TypeExpr.ofText? cs = some t) (rest : List Char) :
    typePart keyword ('{' :: cs ++ '}' :: rest) = (some t, Text.trim rest) := by
  have hne : Text.trim cs ≠ [] := by
    rw [← TypeExpr.ofText_trim] at h
    exact TypeExpr.ne_nil_of_ofText h
  rw [typePart_block hk (nests_of_ofText h) hne, TypeExpr.parse_braces h]

end Tag

/-! ## Keywords that take a type -/

namespace Keyword

/-- The keywords of tags that may carry a type are words of lower-case ASCII letters. -/
theorem typed_plain : (typed.all fun keyword => !keyword.toList.isEmpty &&
    keyword.toList.all fun c => isKeywordChar c && c.toNat < 128 && c.toLower == c) = true := by
  decide +kernel

theorem plain_of_takesType {keyword : String} (h : takesType keyword = true) :
    keyword.toList ≠ [] ∧
      ∀ c ∈ keyword.toList, isKeywordChar c = true ∧ c.toNat < 128 ∧ c.toLower = c := by
  have hk := List.all_eq_true.mp typed_plain keyword (by simpa [takesType] using h)
  simp only [Bool.and_eq_true, Bool.not_eq_true', List.isEmpty_eq_false_iff, List.all_eq_true,
    decide_eq_true_eq, beq_iff_eq] at hk
  exact ⟨hk.1, fun c hc => ⟨(hk.2 c hc).1.1, (hk.2 c hc).1.2, (hk.2 c hc).2⟩⟩

theorem lower_of_takesType {keyword : String} (h : takesType keyword = true) :
    Text.lower keyword = keyword := by
  have hk := (plain_of_takesType h).2
  have hmap : keyword.toList.map Char.toLower = keyword.toList :=
    (List.map_congr_left fun c hc => (hk c hc).2.2).trans (List.map_id _)
  rw [Text.lower_ascii keyword fun c hc => (hk c hc).2.1, hmap, String.ofList_toList]

/-- The keyword of a tag ends where no character of a keyword follows. -/
theorem split_append {written rest : List Char} (hne : written ≠ [])
    (h : ∀ c ∈ written, isKeywordChar c = true)
    (hrest : ∀ c r, rest = c :: r → isKeywordChar c = false) :
    split? ('@' :: (written ++ rest)) = some (written, rest) := by
  have hend : rest.takeWhile isKeywordChar = [] ∧ rest.dropWhile isKeywordChar = rest := by
    cases rest with
    | nil => exact ⟨rfl, rfl⟩
    | cons d s => simp [hrest d s rfl]
  simp only [split?, List.takeWhile_append_of_pos h, List.dropWhile_append_of_pos h, hend,
    List.append_nil]
  rw [if_neg (by simpa using hne)]

theorem split_word {written : List Char} (hne : written ≠ [])
    (h : ∀ c ∈ written, isKeywordChar c = true) (rest : List Char) :
    split? ('@' :: written ++ ' ' :: rest) = some (written, ' ' :: rest) := by
  refine split_append hne h fun c r hc => ?_
  obtain ⟨rfl, -⟩ := List.cons.inj hc
  decide

theorem split_of_takesType {keyword : String} (h : takesType keyword = true) (rest : List Char) :
    split? ('@' :: keyword.toList ++ ' ' :: rest) = some (keyword.toList, ' ' :: rest) := by
  obtain ⟨hne, hk⟩ := plain_of_takesType h
  exact split_word hne (fun c hc => (hk c hc).1) rest

end Keyword

/-! ## Tags with a type -/

/-- A type in braces with a description behind it, as they stand in a tag. -/
theorem trim_typeBlock (cs : List Char) {d : List Char} (hd : Text.trim d = d) :
    ∃ rest, Text.trim (' ' :: '{' :: cs ++ '}' :: ' ' :: d) =
      '{' :: cs ++ '}' :: rest ∧ Text.trim rest = d := by
  have hspace : Text.isBlank ' ' = true := by decide
  refine ⟨Text.trimEnd (' ' :: d), ?_, ?_⟩
  · rw [List.cons_append, Text.trim_blank_cons hspace]
    exact Text.trim_block (by decide) (by decide) cs _
  · rw [Text.trim_trimEnd, Text.trim_blank_cons hspace, hd]

namespace Tag

theorem paramPart_of_not_isParam {keyword : String} (h : Keyword.isParam keyword = false)
    (text : List Char) : paramPart keyword text = ⟨none, false, text⟩ := by
  unfold paramPart
  rw [if_neg (by simp [h])]

/-- A tag whose keyword takes a type and names no parameter has a type and a description. -/
theorem parse_of_takesType {keyword : String} (hk : Keyword.takesType keyword = true)
    (hp : Keyword.isParam keyword = false) (text : List Char) (place : Location) :
    parse ('@' :: keyword.toList ++ ' ' :: text) place =
      let part := typePart keyword (Text.trim (' ' :: text))
      ⟨Keyword.tagName keyword, String.ofList ('@' :: keyword.toList ++ ' ' :: text), place,
        part.1, none, false, nonEmpty? part.2⟩ := by
  unfold parse
  rw [Keyword.split_of_takesType hk]
  simp only [String.ofList_toList, Keyword.lower_of_takesType hk, paramPart_of_not_isParam hp]

theorem nonEmpty_toList (s : String) : nonEmpty? s.toList = if s = "" then none else some s := by
  simp [nonEmpty?]

/-- A text that is read as a type is no record in braces but a type between delimiters, and as
such it is the type of a tag: the count of braces ends behind it, whatever follows, and what
follows is the description. -/
theorem typed_tag {text : String} (h : (TypeExpr.ofText? (Text.trim text.toList)).isSome = true) :
    TypeExpr.ofText? ("\x7b" ++ text ++ "\x7d").toList = none ∧
      TypeExpr.parse ("\x7b" ++ text ++ "\x7d") = TypeExpr.parse text ∧
      (∀ rest : List Char,
        closingSplit? '{' '}' 0 ('{' :: text.toList ++ '}' :: rest) =
          some ('{' :: text.toList ++ ['}'], rest)) ∧
      ∀ keyword description : String, Keyword.takesType keyword = true →
        Keyword.isParam keyword = false → Text.trim description.toList = description.toList →
        ∀ place : Location,
          let tag :=
            parse ("@" ++ keyword ++ " \x7b" ++ text ++ "\x7d " ++ description).toList place
          tag.type = some (TypeExpr.parse text) ∧
            tag.description = if description = "" then none else some description := by
  obtain ⟨t, ht⟩ := Option.isSome_iff_exists.mp h
  rw [TypeExpr.ofText_trim] at ht
  have htext : ("\x7b" ++ text ++ "\x7d").toList = '{' :: text.toList ++ ['}'] := by
    simp
  have hbraces : TypeExpr.parse ("\x7b" ++ text ++ "\x7d") = t := by
    rw [← TypeExpr.parse_braces ht, ← htext, String.ofList_toList]
  rw [TypeExpr.parse_of_ofText ht]
  refine ⟨by rw [htext, TypeExpr.ofText_braces ht], hbraces,
    fun rest => closingSplit_braces ht rest, ?_⟩
  intro keyword description hk hp hd place
  obtain ⟨rest, hrest, hdescription⟩ := trim_typeBlock text.toList hd
  have htag : ("@" ++ keyword ++ " \x7b" ++ text ++ "\x7d " ++ description).toList =
      '@' :: keyword.toList ++
        ' ' :: ('{' :: text.toList ++ '}' :: ' ' :: description.toList) := by
    simp
  have hpart : typePart keyword
      (Text.trim (' ' :: ('{' :: text.toList ++ '}' :: ' ' :: description.toList))) =
        (some t, description.toList) := by
    rw [← List.cons_append, hrest, typePart_braces hk ht, hdescription]
  rw [htag, parse_of_takesType hk hp]
  simp only [hpart, nonEmpty_toList, and_self]

/-- A union that starts with a record, in a tag with a closing brace in its description. -/
theorem typed_tag_union :
    let tag := parse "@returns {{a: number}|?} the \x7dsum".toList Location.start
    (TypeExpr.ofText? (Text.trim "{a: number}|?".toList)).isSome = true ∧
      tag.type.map TypeExpr.names = some ["number", "?"] ∧
      tag.description = some "the \x7dsum" := by
  have h : (TypeExpr.ofText? (Text.trim "{a: number}|?".toList)).isSome = true := by
    decide +kernel
  have hnames : (TypeExpr.parse "{a: number}|?").names = ["number", "?"] := by
    decide +kernel
  obtain ⟨htype, hdescription⟩ := (typed_tag h).2.2.2 "returns" "the \x7dsum" (by decide)
    (by decide) (by decide +kernel) Location.start
  exact ⟨h, (congrArg (Option.map TypeExpr.names) htype).trans (congrArg some hnames),
    hdescription⟩

end Tag

end DocCheck
