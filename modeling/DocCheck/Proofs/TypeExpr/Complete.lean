import DocCheck.Proofs.TypeExpr.RoundTrip

/-!
# The readers accept the grammar

The grammar leaves open whom an `=` or `[]` behind a function type belongs to,
and the readers give it to the return type. So a reader may take more than a
derivation, and what it takes beyond is made of `=` and `[]` alone. Behind a whole
list, a parameter or a field neither can stand, so there the two agree, and a
text that has a derivation is never rejected.

Results:

* `Derives.reads`: a reader takes what is derived, with at most `=` and `[]` beyond.
* `derivable_iff`: exactly the derivable texts make up one type list.
* `parse_derives`: which texts are read as types, and as which.
-/
namespace DocCheck.TypeExpr

/-! ## What stands behind a part -/

/-- The marks that may stand behind a part inside a whole type. -/
def Part.follow : Part → List Mark
  | .typeList | .moreMembers => listEnds
  | .member | .unary | .suffixed | .primary => .brackets :: unaryEnds
  | .paramList => .colon :: .brackets :: unaryEnds
  | .moreArguments => [.greater]
  | .moreParams => [.closeParen]
  | .param => [.comma, .closeParen]
  | .field => [.comma, .closeBrace]
  | .moreFields => [.closeBrace]

/-- The marks that a reader of the part may take beyond a derivation. -/
def Part.beyond : Part → List Mark
  | .member | .unary | .suffixed | .primary => [.equals, .brackets]
  | _ => []

/-- The part is read with some tree, and the reader leaves the rest but for marks that it may
take beyond a derivation. -/
def Taken (p : Part) (ts rest : List Token) : Prop :=
  ∃ (t : p.Tree) (ms : List Mark) (rest' : List Token),
    rest = ms.map Token.mark ++ rest' ∧ (∀ m ∈ ms, m ∈ p.beyond) ∧ Reads p t ts rest'

theorem Reads.taken {p : Part} {t : p.Tree} {ts rest : List Token} (h : Reads p t ts rest) :
    Taken p ts rest :=
  ⟨t, [], rest, rfl, by simp, h⟩

/-- Nothing is taken beyond when what stands behind can only stand behind the part. -/
theorem Taken.exact {p : Part} {ts rest : List Token} (h : Taken p ts rest) {ends : List Mark}
    (hr : Follows ends rest) (hends : ∀ m ∈ p.beyond, m ∉ ends) : ∃ t, Reads p t ts rest := by
  obtain ⟨t, ms, rest', rfl, hms, h⟩ := h
  cases ms with
  | nil => exact ⟨t, h⟩
  | cons m ms =>
    obtain ⟨m', hm', he⟩ := hr (.mark m) rfl
    cases he
    exact absurd hm' (hends m (hms m (by simp)))

/-- Another part that is read from the same tokens on, up to the same rest. -/
theorem Taken.map {p q : Part} {ts us rest : List Token} (h : Taken p ts rest)
    (hb : p.beyond = q.beyond) (f : ∀ t rest', Reads p t ts rest' → ∃ u, Reads q u us rest') :
    Taken q us rest := by
  obtain ⟨t, ms, rest', he, hms, h⟩ := h
  obtain ⟨u, hu⟩ := f t rest' h
  exact ⟨u, ms, rest', he, hb ▸ hms, hu⟩

/-! ## Arrays and optional types -/

theorem arraySuffixes_snd (t : TypeExpr) (ts : List Token) :
    ∃ n, ts = (List.replicate n Mark.brackets).map Token.mark ++ (arraySuffixes t ts).2 := by
  fun_induction arraySuffixes t ts with
  | case1 t ts ih =>
    obtain ⟨n, hn⟩ := ih
    exact ⟨n + 1, by rw [List.replicate_succ, List.map_cons, List.cons_append, ← hn]⟩
  | case2 t ts hn => exact ⟨0, rfl⟩

theorem lacks_arraySuffixes (t : TypeExpr) (ts : List Token) :
    Lacks .brackets (arraySuffixes t ts).2 := by
  fun_induction arraySuffixes t ts with
  | case1 t ts ih => exact ih
  | case2 t ts hn => exact hn

/-- The reader of a suffixed type takes every `[]`. -/
theorem Reads.lacks_brackets {t : TypeExpr} {ts rest : List Token} (h : Reads .suffixed t ts rest) :
    Lacks .brackets rest := by
  have h1 := h (8 * ts.length + 1 + 1) (Nat.le_refl _)
  simp only [read, Option.map_eq_some_iff] at h1
  obtain ⟨⟨u, r⟩, -, he⟩ := h1
  have hl := lacks_arraySuffixes u r
  simp only at he
  rw [he] at hl
  exact hl

theorem Taken.suffixed {ts rest : List Token} (h : Taken .primary ts rest) :
    Taken .suffixed ts rest := by
  obtain ⟨t, ms, rest', rfl, hms, h⟩ := h
  obtain ⟨n, hn⟩ := arraySuffixes_snd t rest'
  refine ⟨_, ms ++ List.replicate n .brackets, _, ?_, ?_, h.suffixed⟩
  · rw [List.map_append, List.append_assoc, ← hn]
  · intro m hm
    rcases List.mem_append.mp hm with hm | hm
    · exact hms m hm
    · rw [List.eq_of_mem_replicate hm]
      decide

theorem Taken.array {ts rest : List Token} (h : Taken .suffixed ts (.mark .brackets :: rest)) :
    Taken .suffixed ts rest := by
  obtain ⟨t, ms, rest', he, hms, h⟩ := h
  cases ms with
  | nil => exact absurd he.symm (h.lacks_brackets rest)
  | cons m ms =>
    cases he
    exact ⟨t, ms, rest', rfl, fun m hm => hms m (by simp [hm]), h⟩

/-- The reader of a member takes one `=` behind the type, if there is one. -/
theorem Taken.member {ts rest : List Token} (h : Taken .unary ts rest) : Taken .member ts rest := by
  obtain ⟨t, ms, rest', rfl, hms, h⟩ := h
  by_cases he : Lacks .equals rest'
  · exact ⟨t, ms, rest', rfl, hms, h.plain he⟩
  · obtain ⟨r, rfl⟩ : ∃ r, rest' = .mark .equals :: r := by
      simpa [Lacks] using he
    refine ⟨_, ms ++ [.equals], r, by simp, ?_, h.optional⟩
    intro m hm
    rcases List.mem_append.mp hm with hm | hm
    · exact hms m hm
    · rw [List.mem_singleton.mp hm]
      decide

theorem Taken.optional {ts rest : List Token} (h : Taken .unary ts (.mark .equals :: rest)) :
    Taken .member ts rest := by
  obtain ⟨t, ms, rest', he, hms, h⟩ := h
  cases ms with
  | nil =>
    cases he
    exact h.optional.taken
  | cons m ms =>
    cases he
    exact Taken.member ⟨t, ms, rest', rfl, fun m hm => hms m (by simp [hm]), h⟩

/-! ## What stands behind an item of a list -/

theorem Derives.follows_moreMembers {us : List TypeExpr} {ts rest : List Token}
    (h : Derives .moreMembers us ts rest) (hr : Follows listEnds rest) : Follows memberEnds ts := by
  cases h with
  | noMembers => exact hr.mono (by decide)
  | nextMember => exact follows_mark (by decide) _

theorem Derives.follows_moreArguments {us : List TypeExpr} {ts rest : List Token}
    (h : Derives .moreArguments us ts rest) (hr : Follows [.greater] rest) :
    Follows listEnds ts := by
  cases h with
  | noArguments => exact hr.mono (by decide)
  | nextArgument => exact follows_mark (by decide) _

theorem Derives.follows_moreParams {ps : List (Option String × TypeExpr)} {ts rest : List Token}
    (h : Derives .moreParams ps ts rest) (hr : Follows [.closeParen] rest) :
    Follows [.comma, .closeParen] ts := by
  cases h with
  | noParams => exact hr.mono (by decide)
  | nextParam => exact follows_mark (by decide) _

theorem Derives.follows_moreFields {fs : List (String × TypeExpr)} {ts rest : List Token}
    (h : Derives .moreFields fs ts rest) (hr : Follows [.closeBrace] rest) :
    Follows [.comma, .closeBrace] ts := by
  cases h with
  | noFields => exact hr.mono (by decide)
  | nextField => exact follows_mark (by decide) _

/-! ## The readers take what is derived -/

/-- What is derived is read, up to a mark that ends the part, but for `=` and `[]` beyond. -/
theorem Derives.reads {p : Part} {t : p.Tree} {ts rest : List Token} (h : Derives p t ts rest)
    (hr : Follows p.follow rest) : Taken p ts rest := by
  induction h
  case single h ih =>
    obtain ⟨t, ht⟩ := (ih (hr.mono (by decide))).exact hr (by decide)
    exact (ht.list_of_member hr).taken
  case union h hs ih ihs =>
    have hend := hs.follows_moreMembers hr
    obtain ⟨t, ht⟩ := (ih (hend.mono (by decide))).exact hend (by decide)
    obtain ⟨us, hus⟩ := (ihs hr).exact hr (by decide)
    exact (ht.list hus).taken
  case noMembers => exact (Reads.noMembers (hr.lacks (by decide))).taken
  case nextMember h hs ih ihs =>
    have hend := hs.follows_moreMembers hr
    obtain ⟨t, ht⟩ := (ih (hend.mono (by decide))).exact hend (by decide)
    obtain ⟨us, hus⟩ := (ihs hr).exact hr (by decide)
    exact (ht.nextMember hus).taken
  case plain h ih => exact (ih hr).member
  case optional h ih => exact (ih (follows_mark (by decide) _)).optional
  case anyNumber h => exact (Reads.anyNumber h).taken
  case anyNumberOf h ih => exact (ih hr).map rfl fun t r ht => ⟨_, ht.anyNumberOf⟩
  case unknown h => exact (Reads.unknown h).taken
  case nullable h ih => exact (ih hr).map rfl fun t r ht => ⟨_, ht.nullable⟩
  case nonNullable h ih => exact (ih hr).map rfl fun t r ht => ⟨_, ht.nonNullable⟩
  case bare h ih => exact (ih hr).map rfl fun t r ht => ⟨t, ht.bare⟩
  case unsuffixed h ih => exact (ih hr).suffixed
  case array h ih => exact (ih (follows_mark (by decide) _)).array
  case group rest h ih =>
    have hend : Follows listEnds (.mark .closeParen :: rest) := follows_mark (by decide) rest
    obtain ⟨t, ht⟩ := (ih hend).exact hend (by decide)
    exact ht.group.taken
  case emptyRecord => exact Reads.emptyRecord.taken
  case record rest h hs ih ihs =>
    have hend : Follows [.closeBrace] (.mark .closeBrace :: rest) := follows_mark (by decide) rest
    have hitem := hs.follows_moreFields hend
    obtain ⟨f, hf⟩ := (ih hitem).exact hitem (by decide)
    obtain ⟨fs, hfs⟩ := (ihs hend).exact hend (by decide)
    exact (hf.record hfs).taken
  case all => exact Reads.all.taken
  -- no colon stands behind a function type; its reader would go on with a return type
  case procedure rest h ih =>
    have hend : Follows Part.paramList.follow rest := hr.mono (by decide)
    obtain ⟨ps, hps⟩ := (ih hend).exact hend (by decide)
    exact (hps.procedure (hr.lacks (by decide))).taken
  case function r _ h ht ih iht =>
    have hend : Follows Part.paramList.follow (.mark .colon :: r) := follows_mark (by decide) r
    obtain ⟨ps, hps⟩ := (ih hend).exact hend (by decide)
    exact (iht hr).map rfl fun t r ht => ⟨_, hps.function ht⟩
  case name h => exact (Reads.name h fun m hm => hr.lacks (by revert m; decide)).taken
  case applied rest h hm ht hs iht ihs =>
    have hend : Follows [.greater] (.mark .greater :: rest) := follows_mark (by decide) rest
    have hitem := hs.follows_moreArguments hend
    obtain ⟨t, ht⟩ := (iht hitem).exact hitem (by decide)
    obtain ⟨us, hus⟩ := (ihs hend).exact hend (by decide)
    exact (Reads.applied h hm ht hus).taken
  case noArguments => exact (Reads.noArguments (hr.lacks (by decide))).taken
  case nextArgument h hs ih ihs =>
    have hitem := hs.follows_moreArguments hr
    obtain ⟨t, ht⟩ := (ih hitem).exact hitem (by decide)
    obtain ⟨us, hus⟩ := (ihs hr).exact hr (by decide)
    exact (ht.nextArgument hus).taken
  case emptyParams => exact Reads.emptyParams.taken
  case params rest h hs ih ihs =>
    have hend : Follows [.closeParen] (.mark .closeParen :: rest) := follows_mark (by decide) rest
    have hitem := hs.follows_moreParams hend
    obtain ⟨q, hq⟩ := (ih hitem).exact hitem (by decide)
    obtain ⟨qs, hqs⟩ := (ihs hend).exact hend (by decide)
    exact (hq.params hqs).taken
  case noParams => exact (Reads.noParams (hr.lacks (by decide))).taken
  case nextParam h hs ih ihs =>
    have hitem := hs.follows_moreParams hr
    obtain ⟨q, hq⟩ := (ih hitem).exact hitem (by decide)
    obtain ⟨qs, hqs⟩ := (ihs hr).exact hr (by decide)
    exact (hq.nextParam hqs).taken
  case named h ih =>
    obtain ⟨t, ht⟩ := (ih (hr.mono (by decide))).exact hr (by decide)
    exact ht.named.taken
  case unnamed h ih =>
    obtain ⟨t, ht⟩ := (ih (hr.mono (by decide))).exact hr (by decide)
    exact (ht.unnamed (hr.lacks (by decide))).taken
  case field h ih =>
    obtain ⟨t, ht⟩ := (ih (hr.mono (by decide))).exact hr (by decide)
    exact ht.field.taken
  case noFields => exact (Reads.noFields (hr.lacks (by decide))).taken
  case nextField h hs ih ihs =>
    have hitem := hs.follows_moreFields hr
    obtain ⟨f, hf⟩ := (ih hitem).exact hitem (by decide)
    obtain ⟨fs, hfs⟩ := (ihs hr).exact hr (by decide)
    exact (hf.nextField hfs).taken

/-! ## Whole texts -/

/-- The grammar derives the tree from the tokens of the text, all of them and in their order. -/
def Derivation (cs : List Char) (t : TypeExpr) : Prop :=
  ∃ ts, tokenize cs = some ts ∧ Derives .typeList t ts []

/-- The tokens of the text make up one type list. -/
def Derivable (cs : List Char) : Prop := ∃ t, Derivation cs t

theorem derivation_of_ofText {cs : List Char} {t : TypeExpr} (h : ofText? cs = some t) :
    Derivation cs t := by
  obtain ⟨ts, hts, ht⟩ := Option.bind_eq_some_iff.mp h
  exact ⟨ts, hts, derives_of_ofTokens ht⟩

theorem derivable_iff {cs : List Char} : Derivable cs ↔ ∃ t, ofText? cs = some t := by
  constructor
  · rintro ⟨t, ts, hts, ht⟩
    obtain ⟨u, hu⟩ := (ht.reads (follows_nil _)).exact (follows_nil []) (by simp)
    exact ⟨u, by rw [ofText?, hts, Option.bind_some, ofTokens_of_reads hu]⟩
  · rintro ⟨t, ht⟩
    exact ⟨t, derivation_of_ofText ht⟩

theorem not_derivable_of_ofText {cs : List Char} (h : ofText? cs = none) : ¬ Derivable cs := by
  rw [derivable_iff]
  rintro ⟨t, ht⟩
  rw [h] at ht
  cases ht

theorem unbraced_eq_some {cs inner : List Char} :
    unbraced? cs = some inner ↔ cs = '{' :: (inner ++ ['}']) := by
  unfold unbraced?
  split
  · rename_i r
    split
    · rename_i hl
      obtain ⟨r', rfl⟩ := List.getLast?_eq_some_iff.mp hl
      simp
    · rename_i hl
      simp only [reduceCtorEq, List.cons.injEq, true_and, false_iff]
      rintro rfl
      simp at hl
  · rename_i hn
    simp only [reduceCtorEq, false_iff]
    rintro rfl
    exact hn _ rfl

/-- What a text may be read as: a tree of the whole text, or else of what stands between the
braces around it, or else no type. -/
inductive Parsed (text : String) : TypeExpr → Prop where
  | whole {t} (h : Derivation (Text.trim text.toList) t) : Parsed text t
  | inside {inner t} (hn : ¬ Derivable (Text.trim text.toList))
      (he : Text.trim text.toList = '{' :: (inner ++ ['}'])) (h : Derivation inner t) :
      Parsed text t
  | kept (hn : ¬ Derivable (Text.trim text.toList))
      (hi : ∀ inner, Text.trim text.toList = '{' :: (inner ++ ['}']) → ¬ Derivable inner) :
      Parsed text (.unknown text)

theorem parsed_parse (text : String) : Parsed text (parse text) := by
  unfold parse
  simp only
  split
  · rename_i t ht
    exact .whole (derivation_of_ofText ht)
  · rename_i hn
    split
    · rename_i t ht
      obtain ⟨inner, he, ht⟩ := Option.bind_eq_some_iff.mp ht
      exact .inside (not_derivable_of_ofText hn) (unbraced_eq_some.mp he) (derivation_of_ofText ht)
    · rename_i hi
      refine .kept (not_derivable_of_ofText hn) fun inner he => not_derivable_of_ofText ?_
      rw [unbraced_eq_some.mpr he, Option.bind_some] at hi
      exact hi

theorem Derivation.isUnknown {cs : List Char} {t : TypeExpr} (h : Derivation cs t) :
    t.isUnknown = false := by
  obtain ⟨ts, hts, ht⟩ := h
  have hw : WellFormed t := (ht.allFormed fun name hn => isIdent_of_mem_tokenize hts hn).1
  cases hw <;> rfl

theorem Parsed.isUnknown_iff {text : String} {t : TypeExpr} (h : Parsed text t) :
    t.isUnknown = false ↔ Derivable (Text.trim text.toList) ∨
      ∃ inner, Text.trim text.toList = '{' :: (inner ++ ['}']) ∧ Derivable inner := by
  cases h with
  | whole h => exact iff_of_true h.isUnknown (.inl ⟨t, h⟩)
  | inside hn he h => exact iff_of_true h.isUnknown (.inr ⟨_, he, t, h⟩)
  | kept hn hi =>
    refine iff_of_false (by simp [TypeExpr.isUnknown]) ?_
    rintro (h | ⟨inner, he, h⟩)
    · exact hn h
    · exact hi inner he h

/-- A text is read as a type exactly when its tokens make up one type list, or those between the
braces around it do; the tree is derived from those tokens, from the first of the two that has a
derivation, and a text with none is kept as it is. -/
theorem parse_derives (text : String) :
    Parsed text (parse text) ∧
    ((parse text).isUnknown = false ↔ Derivable (Text.trim text.toList) ∨
      ∃ inner, Text.trim text.toList = '{' :: (inner ++ ['}']) ∧ Derivable inner) :=
  ⟨parsed_parse text, (parsed_parse text).isUnknown_iff⟩

end DocCheck.TypeExpr
