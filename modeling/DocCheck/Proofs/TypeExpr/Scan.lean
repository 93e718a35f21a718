import DocCheck.Proofs.TypeExpr.Complete

/-!
# The scan of a type expression

`tokenize` goes over a text from left to right: it passes white space, takes an
identifier as far as it goes, and of the marks in front of it takes the longest.
`Scans` says this step by step and apart from the order in which marks are tried.
The scan stops at the end of the text or where nothing starts, and the text is
rejected in the second case only. White space tells tokens apart and does nothing
else, so a text may be spread out between its tokens, also inside of the braces
that are taken for delimiters.

Results:

* `exists_stop`: where a scan stops.
* `scans_iff`: the tokens of a text are those of its scan.
* `Spaced.tokenize_eq`: tokens with white space between them are read back.
* `parse_eq_of_tokenize`: texts with the same tokens are read as the same type.
* `tokenize_lossless`: what of a text is in its tokens, and which texts have none.
-/
namespace DocCheck.TypeExpr

/-! ## One token -/

/-- An identifier is spelled as one; a mark always is. -/
def Token.IsProper : Token → Prop
  | .ident name => isIdent name.toList = true
  | .mark _ => True

/-- The token ends in front of the rest: an identifier does not go on into it, and no longer mark
starts where the mark does. -/
def Token.IsCut : Token → List Char → Prop
  | .ident name, rest => isIdent name.toList = true ∧ EndsIdent rest
  | .mark m, rest =>
    ∀ m' : Mark, m'.spelling <+: m.spelling ++ rest → m'.spelling.length ≤ m.spelling.length

theorem Mark.spelling_pos (m : Mark) : 0 < m.spelling.length := by cases m <;> decide

/-- The mark that is recognised is the longest that the text starts with. -/
theorem length_le_of_punctuation {cs rest : List Char} {m m' : Mark}
    (h : punctuation cs = some (m, rest)) (hm : m'.spelling <+: cs) :
    m'.spelling.length ≤ m.spelling.length := by
  obtain ⟨u, rfl⟩ := hm
  have hpos := m.spelling_pos
  cases m'
  -- the marks of several characters are tried first
  case ellipsis | dotLess | brackets =>
    simp only [Mark.spelling, List.cons_append, List.nil_append, punctuation, Option.some.injEq,
      Prod.mk.injEq] at h
    exact Nat.le_of_eq (by rw [h.1])
  all_goals exact hpos

theorem isCut_of_punctuation {cs rest : List Char} {m : Mark}
    (h : punctuation cs = some (m, rest)) : (Token.mark m).IsCut rest := by
  intro m' hm
  rw [← punctuation_spelling h] at hm
  exact length_le_of_punctuation h hm

theorem punctuation_of_isCut {m : Mark} {rest : List Char} (h : (Token.mark m).IsCut rest) :
    punctuation (m.spelling ++ rest) = some (m, rest) := by
  cases m
  case dot =>
    apply punctuation_dot
    · rintro r rfl
      exact absurd (h .dotLess ⟨r, rfl⟩) (by decide)
    · rintro r rfl
      exact absurd (h .ellipsis ⟨r, rfl⟩) (by decide)
  all_goals rfl

theorem tokenize_of_isCut {t : Token} {rest : List Char} (h : t.IsCut rest) :
    tokenize (t.spelling ++ rest) = (tokenize rest).map (t :: ·) := by
  cases t with
  | ident name =>
    have hi := tokenize_ident h.1 h.2
    rwa [String.ofList_toList] at hi
  | mark m =>
    have hp := punctuation_of_isCut h
    cases hs : m.spelling ++ rest with
    | nil =>
      have hlen := congrArg List.length hs
      have hpos := m.spelling_pos
      simp only [List.length_append, List.length_nil] at hlen
      omega
    | cons c cs =>
      rw [hs] at hp
      show tokenize (m.spelling ++ rest) = _
      rw [hs, tokenize_of_punctuation hp]

/-- An identifier is taken as far as it goes. -/
theorem isCut_takeWhile {c : Char} (h : startsIdent c = true) (r : List Char) :
    (Token.ident (String.ofList (c :: r.takeWhile continuesIdent))).IsCut
      (r.dropWhile continuesIdent) := by
  constructor
  · simp [isIdent, h]
  · intro d hd
    have hstop := List.head?_dropWhile_not continuesIdent r
    rw [Option.mem_def.mp hd] at hstop
    simpa using hstop

/-- No token holds white space. -/
theorem Token.IsProper.filter {t : Token} (h : t.IsProper) :
    t.spelling.filter (!Text.isBlank ·) = t.spelling := by
  cases t with
  | ident name =>
    rw [List.filter_eq_self]
    intro c hc
    have hcont : continuesIdent c = true := by
      cases hn : name.toList with
      | nil => rw [Token.spelling, hn] at hc; cases hc
      | cons d r =>
        rw [Token.IsProper, hn] at h
        rw [Token.spelling, hn] at hc
        simp only [isIdent, Bool.and_eq_true, List.all_eq_true] at h
        rcases List.mem_cons.mp hc with rfl | hc
        · exact continuesIdent_of_startsIdent h.1
        · exact h.2 c hc
    rw [Bool.not_eq_true', ← Bool.not_eq_true]
    intro hb
    rw [continuesIdent_of_isBlank hb] at hcont
    cases hcont
  | mark m => cases m <;> decide

theorem Token.IsCut.isProper {t : Token} {rest : List Char} (h : t.IsCut rest) : t.IsProper := by
  cases t with
  | ident name => exact h.1
  | mark m => trivial

/-! ## The scan -/

/-- The scan of a text gives the tokens and then stands in front of the rest. -/
inductive Scans : List Char → List Token → List Char → Prop where
  | here {cs} : Scans cs [] cs
  | blank {c cs ts rest} (hc : Text.isBlank c = true) (h : Scans cs ts rest) :
      Scans (c :: cs) ts rest
  | token {t cs ts rest} (ht : t.IsCut cs) (h : Scans cs ts rest) :
      Scans (t.spelling ++ cs) (t :: ts) rest

/-- Neither white space nor a token starts here, and the text is not at its end. -/
def NothingStarts (cs : List Char) : Prop :=
  cs ≠ [] ∧ (∀ c ∈ cs.head?, Text.isBlank c = false) ∧
    ∀ t : Token, t.IsProper → ¬ t.spelling <+: cs

/-- The scan goes on until the end of the text or until nothing starts. -/
theorem exists_stop (cs : List Char) :
    ∃ ts rest, Scans cs ts rest ∧ (rest = [] ∨ NothingStarts rest) := by
  fun_induction tokenize cs with
  | case1 => exact ⟨[], [], .here, .inl rfl⟩
  | case2 c r hc ih =>
    obtain ⟨ts, rest, h, hrest⟩ := ih
    exact ⟨ts, rest, .blank hc h, hrest⟩
  | case3 c r hc hs name ih =>
    obtain ⟨ts, rest, h, hrest⟩ := ih
    refine ⟨.ident name :: ts, rest, ?_, hrest⟩
    have hcut := Scans.token (isCut_takeWhile hs r) h
    rwa [Token.spelling, String.toList_ofList, List.cons_append,
      List.takeWhile_append_dropWhile] at hcut
  | case4 c r hc hs m rest' hp ih =>
    obtain ⟨ts, rest, h, hrest⟩ := ih
    refine ⟨.mark m :: ts, rest, ?_, hrest⟩
    rw [punctuation_spelling hp]
    exact .token (isCut_of_punctuation hp) h
  | case5 c r hc hs hp =>
    refine ⟨[], c :: r, .here, .inr ⟨by simp, by simpa using hc, ?_⟩⟩
    rintro (name | m) ht ⟨u, hu⟩
    · rw [Token.IsProper, isIdent.eq_def] at ht
      rw [Token.spelling] at hu
      split at ht
      · cases ht
      · rename_i hn
        rw [hn] at hu
        cases hu
        exact hs (Bool.and_eq_true _ _ ▸ ht).1
    · have hnone := punctuation_spelling_ne_none m u
      rw [show m.spelling ++ u = c :: r from hu] at hnone
      exact hnone hp

theorem tokenize_of_nothingStarts {cs : List Char} (h : NothingStarts cs) : tokenize cs = none := by
  obtain ⟨hne, hblank, hnone⟩ := h
  cases cs with
  | nil => exact absurd rfl hne
  | cons c r =>
    have hs : ¬ startsIdent c = true := fun hs =>
      hnone (.ident (String.ofList [c])) (by simp [Token.IsProper, isIdent, hs])
        ⟨r, by simp [Token.spelling]⟩
    rw [tokenize, if_neg (by simp [hblank c rfl]), if_neg hs]
    split
    · rename_i m rest hp
      exact absurd ⟨rest, (punctuation_spelling hp).symm⟩ (hnone (.mark m) trivial)
    · rfl

theorem Scans.tokenize_eq {cs rest : List Char} {ts : List Token} (h : Scans cs ts rest) :
    tokenize cs = (tokenize rest).map (ts ++ ·) := by
  induction h with
  | here => simp
  | blank hc h ih => rw [tokenize_blank hc, ih]
  | token ht h ih =>
    rw [tokenize_of_isCut ht, ih, Option.map_map]
    rfl

/-- The tokens of a text are those that its scan gives up to the end. -/
theorem scans_iff {cs : List Char} {ts : List Token} :
    tokenize cs = some ts ↔ Scans cs ts [] := by
  constructor
  · intro hts
    obtain ⟨ts', rest, h, hrest⟩ := exists_stop cs
    have heq := h.tokenize_eq
    rcases hrest with rfl | hrest
    · rw [hts, tokenize, Option.map_some, List.append_nil] at heq
      cases heq
      exact h
    · rw [hts, tokenize_of_nothingStarts hrest] at heq
      cases heq
  · intro h
    rw [h.tokenize_eq, tokenize, Option.map_some, List.append_nil]

/-- A text has no tokens exactly when its scan comes to a place where nothing starts. -/
theorem tokenize_eq_none_iff {cs : List Char} :
    tokenize cs = none ↔ ∃ ts rest, Scans cs ts rest ∧ NothingStarts rest := by
  constructor
  · intro hnone
    obtain ⟨ts, rest, h, rfl | hrest⟩ := exists_stop cs
    · rw [scans_iff.mpr h] at hnone
      cases hnone
    · exact ⟨ts, rest, h, hrest⟩
  · rintro ⟨ts, rest, h, hrest⟩
    rw [h.tokenize_eq, tokenize_of_nothingStarts hrest, Option.map_none]

/-- What the scan has passed is made of the tokens and of white space. -/
theorem Scans.filter {cs rest : List Char} {ts : List Token} (h : Scans cs ts rest) :
    cs.filter (!Text.isBlank ·) =
      ts.flatMap Token.spelling ++ rest.filter (!Text.isBlank ·) := by
  induction h with
  | here => rfl
  | blank hc h ih => rw [List.filter_cons_of_neg (by simp [hc]), ih]
  | token ht h ih =>
    rw [List.filter_append, ht.isProper.filter, ih, List.flatMap_cons, List.append_assoc]

/-- Every token stands where the scan has given those before it, and the scan goes on behind it. -/
theorem Scans.at_token {cs rest : List Char} {before after : List Token} {t : Token}
    (h : Scans cs (before ++ t :: after) rest) :
    ∃ behind, Scans cs before (t.spelling ++ behind) ∧ t.IsCut behind ∧
      Scans behind after rest := by
  generalize hts : before ++ t :: after = ts at h
  induction h generalizing before with
  | here => exact absurd hts (by simp)
  | blank hc h ih =>
    obtain ⟨behind, hbefore, ht, hafter⟩ := ih hts
    exact ⟨behind, .blank hc hbefore, ht, hafter⟩
  | token ht h ih =>
    cases before with
    | nil =>
      cases hts
      exact ⟨_, .here, ht, h⟩
    | cons u before =>
      cases hts
      obtain ⟨behind, hbefore, ht', hafter⟩ := ih rfl
      exact ⟨behind, .token ht hbefore, ht', hafter⟩

theorem Scans.suffix {cs rest : List Char} {ts : List Token} (h : Scans cs ts rest) :
    rest <:+ cs := by
  induction h with
  | here => exact List.suffix_refl _
  | blank hc h ih => exact ih.trans (List.suffix_cons _ _)
  | token ht h ih => exact ih.trans (List.suffix_append _ _)

/-- A scan that gives no token has passed white space. -/
theorem Scans.exists_blanks {cs rest : List Char} (h : Scans cs [] rest) :
    ∃ bs, cs = bs ++ rest ∧ ∀ c ∈ bs, Text.isBlank c = true := by
  generalize hts : [] = ts at h
  induction h with
  | here => exact ⟨[], rfl, by simp⟩
  | @blank c cs ts rest hc h ih =>
    obtain ⟨bs, rfl, hbs⟩ := ih hts
    exact ⟨c :: bs, rfl, List.forall_mem_cons.mpr ⟨hc, hbs⟩⟩
  | token ht h ih => cases hts

/-! ## Tokens with white space between them -/

/-- The spellings of the tokens, joined by white space. -/
inductive Joined : List Token → List Char → Prop where
  | nil : Joined [] []
  | single {t} : Joined [t] t.spelling
  | cons {t u ts gap cs} (hne : gap ≠ []) (hgap : ∀ c ∈ gap, Text.isBlank c = true)
      (h : Joined (u :: ts) cs) : Joined (t :: u :: ts) (t.spelling ++ gap ++ cs)

/-- The spellings of the tokens with white space between them, and any at both ends. -/
def Spaced (ts : List Token) (text : List Char) : Prop :=
  ∃ before cs after, text = before ++ cs ++ after ∧ Joined ts cs ∧
    (∀ c ∈ before, Text.isBlank c = true) ∧ ∀ c ∈ after, Text.isBlank c = true

theorem isCut_nil {t : Token} (h : t.IsProper) : t.IsCut [] := by
  cases t with
  | ident name => exact ⟨h, by simp [EndsIdent]⟩
  | mark m =>
    intro m' hm
    rw [List.append_nil] at hm
    exact hm.length_le

theorem tokenize_spelling {t : Token} (h : t.IsProper) : tokenize t.spelling = some [t] := by
  have ht := tokenize_of_isCut (isCut_nil h)
  rwa [List.append_nil, tokenize, Option.map_some] at ht

theorem Joined.tokenize_eq {ts : List Token} {cs : List Char} (h : Joined ts cs)
    (hts : ∀ t ∈ ts, t.IsProper) : tokenize cs = some ts := by
  induction h with
  | nil => rw [tokenize]
  | single => exact tokenize_spelling (hts _ (by simp))
  | @cons t u ts gap cs hne hgap h ih =>
    have ht := tokenize_spelling (hts t (by simp))
    have hrest := ih fun x hx => hts x (List.mem_cons_of_mem _ hx)
    cases gap with
    | nil => exact absurd rfl hne
    | cons b gap =>
      calc tokenize (t.spelling ++ b :: gap ++ cs)
          = tokenize (t.spelling ++ b :: (gap ++ cs)) := by
            rw [List.append_assoc, List.cons_append]
        _ = (tokenize (b :: gap ++ cs)).map ([t] ++ ·) := by
            rw [tokenize_append (endsToken_of_isBlank (hgap b (by simp))), ht, Option.bind_some,
              List.cons_append]
        _ = some (t :: u :: ts) := by
            rw [tokenize_blanks hgap, hrest]
            rfl

/-- Tokens with white space between them are read back. -/
theorem Spaced.tokenize_eq {ts : List Token} {text : List Char} (h : Spaced ts text)
    (hts : ∀ t ∈ ts, t.IsProper) : tokenize text = some ts := by
  obtain ⟨before, cs, after, rfl, hcs, hbefore, hafter⟩ := h
  rw [tokenize_append_blanks _ hafter, tokenize_blanks hbefore, hcs.tokenize_eq hts]

theorem isProper_of_mem_tokenize {cs : List Char} {ts : List Token} (h : tokenize cs = some ts)
    {t : Token} (ht : t ∈ ts) : t.IsProper := by
  cases t with
  | ident name => exact isIdent_of_mem_tokenize h ht
  | mark m => trivial

/-! ## Texts with the same tokens -/

/-- A text whose first and last tokens are braces has these braces around it. -/
theorem exists_inner {cs : List Char} {ts : List Token}
    (h : tokenize cs = some (.mark .openBrace :: (ts ++ [.mark .closeBrace]))) :
    ∃ inner, Text.trim cs = '{' :: inner ++ ['}'] ∧ tokenize inner = some ts := by
  have hscan : Scans cs ([] ++ .mark .openBrace :: (ts ++ [.mark .closeBrace])) [] :=
    scans_iff.mp h
  obtain ⟨r, hopen, -, hr⟩ := hscan.at_token
  obtain ⟨r', hinner, -, hclose⟩ := hr.at_token
  obtain ⟨bs, rfl, hbs⟩ := hopen.exists_blanks
  obtain ⟨inner, rfl⟩ := hinner.suffix
  obtain ⟨bs', rfl, hbs'⟩ := hclose.exists_blanks
  have htrim : Text.trim (bs ++ ((Token.mark .openBrace).spelling ++
      (inner ++ ((Token.mark .closeBrace).spelling ++ (bs' ++ []))))) =
        '{' :: inner ++ ['}'] := by
    rw [Text.trim_blanks_append hbs, List.append_nil, ← List.append_assoc inner,
      ← List.append_assoc, Text.trim_append_blanks hbs']
    exact trim_braces inner
  refine ⟨inner, htrim, ?_⟩
  rw [← tokenize_trim, htrim] at h
  cases hts : tokenize inner with
  | none =>
    have hnone : tokenize ('{' :: inner ++ ['}']) = none := by
      rw [List.cons_append, ← List.singleton_append,
        show ['{'] = Mark.openBrace.spelling from rfl, tokenize_mark rfl,
        tokenize_append (by decide), hts]
      rfl
    rw [hnone] at h
    cases h
  | some ts' =>
    rw [tokenize_braces hts] at h
    simp only [Option.some.injEq, List.cons.injEq, true_and, List.append_left_inj] at h
    rw [h]

/-- What a type is read from is in the tokens of the text. -/
theorem parse_eq_of_tokenize {text text' : String}
    (h : tokenize text'.toList = tokenize text.toList) (hk : (parse text).isUnknown = false) :
    parse text' = parse text := by
  cases hw : ofText? text.toList with
  | some t =>
    rw [parse_of_ofText hw]
    apply parse_of_ofText
    rwa [ofText?, h]
  | none =>
    -- the type stands between braces, and these are tokens
    have hwhole : ¬ Derivable (Text.trim text.toList) :=
      not_derivable_of_ofText (by rwa [ofText_trim])
    obtain ⟨inner, he, hd⟩ := ((parsed_parse text).isUnknown_iff.mp hk).resolve_left hwhole
    obtain ⟨t, ht⟩ := derivable_iff.mp hd
    obtain ⟨ts, hts, htree⟩ := Option.bind_eq_some_iff.mp ht
    have htokens : tokenize text'.toList =
        some (.mark .openBrace :: (ts ++ [.mark .closeBrace])) := by
      rw [h, ← tokenize_trim, he]
      exact tokenize_braces hts
    obtain ⟨inner', he', hts'⟩ := exists_inner htokens
    have hu : unbraced? (Text.trim text.toList) = some inner := unbraced_eq_some.mpr he
    have hu' : unbraced? (Text.trim text'.toList) = some inner' := unbraced_eq_some.mpr he'
    have hw' : ofText? text'.toList = none := by rwa [ofText?, h]
    have ht' : ofText? inner' = some t := by rw [ofText?, hts', Option.bind_some, htree]
    rw [parse, parse]
    simp only [ofText_trim, hw, hw', hu, hu', Option.bind_some, ht, ht']

/-- The tokens of a text are all of it but for its white space, every identifier among them goes as
far as it can, and every way to put white space between them gives the same tokens again and the
same type, if there is one. A text without tokens is one whose scan, which takes the longest
identifier or mark each time, comes to a place where neither a token nor white space starts. -/
theorem tokenize_lossless (text : String) :
    (∀ ts, tokenize text.toList = some ts →
      ts.flatMap Token.spelling = text.toList.filter (!Text.isBlank ·) ∧
      (∀ before name after, ts = before ++ .ident name :: after →
        isIdent name.toList = true ∧ ∃ behind, Scans text.toList before (name.toList ++ behind) ∧
          EndsIdent behind ∧ Scans behind after []) ∧
      (∀ spread : String, Spaced ts spread.toList → tokenize spread.toList = some ts) ∧
      ∀ s s' : String, (s = text ∨ Spaced ts s.toList) → (s' = text ∨ Spaced ts s'.toList) →
        (parse s).isUnknown = false → parse s' = parse s) ∧
    (tokenize text.toList = none ↔
      ∃ before rest, Scans text.toList before rest ∧ NothingStarts rest) := by
  refine ⟨fun ts hts => ?_, tokenize_eq_none_iff⟩
  have hscan := scans_iff.mp hts
  have hspread : ∀ s : String, (s = text ∨ Spaced ts s.toList) → tokenize s.toList = some ts := by
    rintro s (rfl | hs)
    · exact hts
    · exact hs.tokenize_eq fun t ht => isProper_of_mem_tokenize hts ht
  refine ⟨?_, ?_, fun s hs => hspread s (.inr hs), fun s s' hs hs' hk => ?_⟩
  · rw [hscan.filter, List.filter_nil, List.append_nil]
  · rintro before name after rfl
    obtain ⟨behind, hbefore, ht, hafter⟩ := hscan.at_token
    exact ⟨ht.1, behind, hbefore, ht.2, hafter⟩
  · exact parse_eq_of_tokenize ((hspread s' hs').trans (hspread s hs).symm) hk

/-- A type between braces with marks side by side, and the same spread out; and a text that no token
goes on with. -/
theorem tokenize_lossless_braced :
    let text := "{A.<T[]>}"
    let spread := "{ A .< T [] > } "
    let ts : List Token := [.mark .openBrace, .ident "A", .mark .dotLess, .ident "T",
      .mark .brackets, .mark .greater, .mark .closeBrace]
    tokenize text.toList = some ts ∧ Spaced ts spread.toList ∧ (parse text).isUnknown = false ∧
      tokenize spread.toList = some ts ∧ parse spread = parse text ∧
      ∃ before rest, Scans "A.#".toList before rest ∧ NothingStarts rest := by
  intro text spread ts
  have hts : tokenize text.toList = some ts := by decide +kernel
  have hgap : ∀ c ∈ [' '], Text.isBlank c = true := List.forall_mem_singleton.mpr (by decide)
  have hjoined : Joined ts (['{'] ++ [' '] ++ (['A'] ++ [' '] ++ (['.', '<'] ++ [' '] ++
      (['T'] ++ [' '] ++ (['[', ']'] ++ [' '] ++ (['>'] ++ [' '] ++ ['}'])))))) :=
    .cons (by simp) hgap <| .cons (by simp) hgap <| .cons (by simp) hgap <|
      .cons (by simp) hgap <| .cons (by simp) hgap <| .cons (by simp) hgap .single
  have hspread : Spaced ts spread.toList :=
    ⟨[], _, [' '], by decide +kernel, hjoined, by simp, hgap⟩
  have hk : (parse text).isUnknown = false := by decide +kernel
  obtain ⟨-, -, hsame, hparse⟩ := (tokenize_lossless text).1 ts hts
  exact ⟨hts, hspread, hk, hsame spread hspread,
    hparse text spread (.inl rfl) (.inr hspread) hk,
    (tokenize_lossless "A.#").2.mp (by decide +kernel)⟩

end DocCheck.TypeExpr
