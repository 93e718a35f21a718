import DocCheck.Proofs.TypeExpr.Grammar

/-!
# What the readers of type expressions take

`Reads p t ts rest` says that the reader of the part `p` takes the tree `t` from
the tokens and leaves `rest`, whenever its calls may nest eight levels a token.
There is one rule for each form of a part. A rule asks for what the reader looks
at before it goes on: the readers never stop early.

Results:

* `Reads.derives`: the grammar derives what a reader takes.
* `Reads.list` to `Reads.nextField`: one rule for each form of a part.
-/
namespace DocCheck.TypeExpr

/-- The levels of calls that a part needs beyond eight for each of its tokens. -/
def Part.level : Part → Nat
  | .suffixed => 2
  | .unary => 3
  | .member => 4
  | .typeList => 5
  | .param => 6
  | .paramList => 7
  | _ => 1

/-- The reader of a part takes a tree and leaves the rest, at any depth that is enough. -/
def Reads (p : Part) (t : p.Tree) (ts rest : List Token) : Prop :=
  ∀ n, 8 * ts.length + p.level ≤ n → read p n ts = some (t, rest)

/-- The rest does not start with the mark. -/
def Lacks (m : Mark) (rest : List Token) : Prop := ∀ r, rest ≠ .mark m :: r

theorem lacks_mark {m m' : Mark} (h : m' ≠ m) (r : List Token) : Lacks m (.mark m' :: r) := by
  rintro r' he
  cases he
  exact h rfl

/-- The rest is empty or starts with one of the marks. -/
def Follows (ms : List Mark) (rest : List Token) : Prop := ∀ x ∈ rest.head?, ∃ m ∈ ms, x = .mark m

theorem follows_nil (ms : List Mark) : Follows ms [] := by
  intro x hx
  cases hx

theorem follows_mark {ms : List Mark} {m : Mark} (h : m ∈ ms) (r : List Token) :
    Follows ms (.mark m :: r) := by
  intro x hx
  cases hx
  exact ⟨m, h, rfl⟩

theorem Follows.mono {ms ms' : List Mark} {rest : List Token} (h : Follows ms rest)
    (hms : ∀ m ∈ ms, m ∈ ms') : Follows ms' rest := by
  intro x hx
  obtain ⟨m, hm, he⟩ := h x hx
  exact ⟨m, hms m hm, he⟩

theorem Follows.lacks {ms : List Mark} {m : Mark} {rest : List Token} (h : Follows ms rest)
    (hm : m ∉ ms) : Lacks m rest := by
  rintro r rfl
  obtain ⟨m', hm', he⟩ := h _ rfl
  cases he
  exact hm hm'

theorem Follows.standsAlone {ms : List Mark} {rest : List Token} (h : Follows ms rest)
    (hms : ∀ m ∈ ms, mayFollowBare [.mark m] = true) : StandsAlone rest := by
  rw [standsAlone_iff]
  cases rest with
  | nil => rfl
  | cons x r =>
    obtain ⟨m, hm, rfl⟩ := h x rfl
    exact hms m hm

theorem Reads.derives {p : Part} {t : p.Tree} {ts rest : List Token} (h : Reads p t ts rest) :
    Derives p t ts rest :=
  derives_of_read (h _ (Nat.le_refl _))

theorem Reads.length_le {p : Part} {t : p.Tree} {ts rest : List Token} (h : Reads p t ts rest) :
    rest.length + p.least ≤ ts.length :=
  h.derives.length_le

theorem Part.level_pos (p : Part) : 0 < p.level := by cases p <;> decide

/-- It is enough to look at depths above zero. -/
theorem Reads.intro {p : Part} {t : p.Tree} {ts rest : List Token}
    (h : ∀ n, 8 * ts.length + p.level ≤ n + 1 → read p (n + 1) ts = some (t, rest)) :
    Reads p t ts rest := by
  intro n hn
  cases n with
  | zero => have := p.level_pos; omega
  | succ n => exact h n hn

/-! ## Lists of types -/

theorem Reads.list {t : TypeExpr} {us : List TypeExpr} {ts r rest : List Token}
    (h : Reads .member t ts r) (hs : Reads .moreMembers us r rest) :
    Reads .typeList (ofMembers t us) ts rest := by
  refine .intro fun n hn => ?_
  have hl := h.length_le
  simp only [Part.level, Part.least] at hn hl
  have h1 : member n ts = some (t, r) := h n (by simp only [Part.level]; omega)
  have h2 : moreMembers n r = some (us, rest) := hs n (by simp only [Part.level]; omega)
  simp [read, typeList, h1, h2]

theorem Reads.noMembers {rest : List Token} (h : Lacks .bar rest) :
    Reads .moreMembers [] rest rest := by
  refine .intro fun n _ => ?_
  simp only [read]
  rw [moreMembers]
  exact h

theorem Reads.nextMember {t : TypeExpr} {us : List TypeExpr} {ts r rest : List Token}
    (h : Reads .member t ts r) (hs : Reads .moreMembers us r rest) :
    Reads .moreMembers (t :: us) (.mark .bar :: ts) rest := by
  refine .intro fun n hn => ?_
  have hl := h.length_le
  simp only [Part.level, Part.least, List.length_cons] at hn hl
  have h1 : member n ts = some (t, r) := h n (by simp only [Part.level]; omega)
  have h2 : moreMembers n r = some (us, rest) := hs n (by simp only [Part.level]; omega)
  simp [read, moreMembers, h1, h2]

/-! ## Members and unary types -/

/-- A type starts with none but its openers. -/
theorem Derives.lacks {p : Part} {t : p.Tree} {ts rest : List Token} {m : Mark}
    (h : Derives p t ts rest) (hp : p.isType = true) (hm : m ∉ p.openers) : Lacks m ts := by
  rintro r rfl
  rcases h.opens hp with ⟨m', _, he, hm'⟩ | ⟨_, _, he, _⟩
  · cases he
    exact hm hm'
  · cases he

/-- A type that is not there yet: what it starts with cannot follow a `?` that stands alone. -/
theorem not_mayFollowBare {t : TypeExpr} {ts rest : List Token} (h : Derives .unary t ts rest) :
    mayFollowBare ts = false := by
  rcases h.opens rfl with ⟨m, r, rfl, hm⟩ | ⟨name, r, rfl, _⟩
  · simp only [Part.openers, List.mem_cons, List.not_mem_nil, or_false] at hm
    rcases hm with rfl | rfl | rfl | rfl | rfl <;> rfl
  · rfl

theorem Reads.plain {t : TypeExpr} {ts rest : List Token} (h : Reads .unary t ts rest)
    (hr : Lacks .equals rest) : Reads .member t ts rest := by
  refine .intro fun n hn => ?_
  simp only [Part.level] at hn
  have h1 : unary n ts = some (t, rest) := h n (by simp only [Part.level]; omega)
  simp only [read]
  rw [member]
  · simp only [h1, Option.bind_eq_bind, Option.bind_some]
    split
    · rename_i he
      cases he
      exact absurd rfl (hr _)
    · rename_i he
      cases he
      rfl
  · exact h.derives.lacks rfl (by decide)

theorem Reads.optional {t : TypeExpr} {ts rest : List Token}
    (h : Reads .unary t ts (.mark .equals :: rest)) : Reads .member (.optional t) ts rest := by
  refine .intro fun n hn => ?_
  simp only [Part.level] at hn
  have h1 : unary n ts = some (t, .mark .equals :: rest) := h n (by simp only [Part.level]; omega)
  simp only [read]
  rw [member]
  · simp [h1]
  · exact h.derives.lacks rfl (by decide)

theorem Reads.anyNumber {rest : List Token} (h : StandsAlone rest) :
    Reads .member (.arrayOf (.native "*")) (.mark .ellipsis :: rest) rest := by
  refine .intro fun n _ => ?_
  simp [read, member, standsAlone_iff.mp h]

theorem Reads.anyNumberOf {t : TypeExpr} {ts rest : List Token} (h : Reads .unary t ts rest) :
    Reads .member (.arrayOf t) (.mark .ellipsis :: ts) rest := by
  refine .intro fun n hn => ?_
  simp only [Part.level, List.length_cons] at hn
  have h1 : unary n ts = some (t, rest) := h n (by simp only [Part.level]; omega)
  simp [read, member, not_mayFollowBare h.derives, h1]

theorem Reads.unknown {rest : List Token} (h : StandsAlone rest) :
    Reads .unary (.native "?") (.mark .question :: rest) rest := by
  refine .intro fun n _ => ?_
  simp [read, unary, standsAlone_iff.mp h]

theorem Reads.nullable {t : TypeExpr} {ts rest : List Token} (h : Reads .unary t ts rest) :
    Reads .unary (.nullable t) (.mark .question :: ts) rest := by
  refine .intro fun n hn => ?_
  simp only [Part.level, List.length_cons] at hn
  have h1 : unary n ts = some (t, rest) := h n (by simp only [Part.level]; omega)
  simp [read, unary, not_mayFollowBare h.derives, h1]

theorem Reads.nonNullable {t : TypeExpr} {ts rest : List Token} (h : Reads .unary t ts rest) :
    Reads .unary (.nonNullable t) (.mark .bang :: ts) rest := by
  refine .intro fun n hn => ?_
  simp only [Part.level, List.length_cons] at hn
  have h1 : unary n ts = some (t, rest) := h n (by simp only [Part.level]; omega)
  simp [read, unary, h1]

theorem Reads.suffixed {t : TypeExpr} {ts r : List Token} (h : Reads .primary t ts r) :
    Reads .suffixed (arraySuffixes t r).1 ts (arraySuffixes t r).2 := by
  refine .intro fun n hn => ?_
  simp only [Part.level] at hn
  have h1 : primary n ts = some (t, r) := h n (by simp only [Part.level]; omega)
  simp [read, h1]

theorem Reads.bare {t : TypeExpr} {ts rest : List Token} (h : Reads .suffixed t ts rest) :
    Reads .unary t ts rest := by
  refine .intro fun n hn => ?_
  simp only [Part.level] at hn
  have h1 := h (n + 1) (by simp only [Part.level]; omega)
  simp only [read, Option.map_eq_some_iff] at h1
  obtain ⟨⟨u, r⟩, h1, he⟩ := h1
  simp only [read]
  rw [unary]
  · simpa [h1] using he
  · exact h.derives.lacks rfl (by decide)
  · exact h.derives.lacks rfl (by decide)

/-! ## Primary types -/

theorem Reads.group {t : TypeExpr} {ts rest : List Token}
    (h : Reads .typeList t ts (.mark .closeParen :: rest)) :
    Reads .primary t (.mark .openParen :: ts) rest := by
  refine .intro fun n hn => ?_
  simp only [Part.level, List.length_cons] at hn
  have h1 : typeList n ts = some (t, .mark .closeParen :: rest) :=
    h n (by simp only [Part.level]; omega)
  simp [read, primary, h1, expect]

theorem Reads.emptyRecord {rest : List Token} :
    Reads .primary (.record []) (.mark .openBrace :: .mark .closeBrace :: rest) rest := by
  refine .intro fun n _ => ?_
  simp [read, primary]

theorem Derives.lacks_of_field {f : String × TypeExpr} {ts rest : List Token} {m : Mark}
    (h : Derives .field f ts rest) : Lacks m ts := by
  rintro r rfl
  cases h

theorem Reads.record {f : String × TypeExpr} {fs : List (String × TypeExpr)}
    {ts r rest : List Token} (h : Reads .field f ts r)
    (hs : Reads .moreFields fs r (.mark .closeBrace :: rest)) :
    Reads .primary (.record (f :: fs)) (.mark .openBrace :: ts) rest := by
  refine .intro fun n hn => ?_
  have hl := h.length_le
  simp only [Part.level, Part.least, List.length_cons] at hn hl
  have h1 : field n ts = some (f, r) := h n (by simp only [Part.level]; omega)
  have h2 : moreFields n r = some (fs, .mark .closeBrace :: rest) :=
    hs n (by simp only [Part.level]; omega)
  simp only [read]
  rw [primary]
  · simp [h1, h2, expect]
  · exact h.derives.lacks_of_field

theorem Reads.all {rest : List Token} :
    Reads .primary (.native "*") (.mark .star :: rest) rest := by
  refine .intro fun n _ => ?_
  simp [read, primary]

theorem Reads.procedure {ps : List (Option String × TypeExpr)} {ts rest : List Token}
    (h : Reads .paramList ps ts rest) (hr : Lacks .colon rest) :
    Reads .primary (.function ps none) (.ident "function" :: .mark .openParen :: ts) rest := by
  refine .intro fun n hn => ?_
  simp only [Part.level, List.length_cons] at hn
  have h1 : paramList n ts = some (ps, rest) := h n (by simp only [Part.level]; omega)
  simp only [read, primary, h1, Option.bind_eq_bind, Option.bind_some]
  split
  · exact absurd rfl (hr _)
  · rfl

theorem Reads.function {ps : List (Option String × TypeExpr)} {t : TypeExpr}
    {ts r rest : List Token} (h : Reads .paramList ps ts (.mark .colon :: r))
    (ht : Reads .member t r rest) :
    Reads .primary (.function ps (some t)) (.ident "function" :: .mark .openParen :: ts) rest := by
  refine .intro fun n hn => ?_
  have hl := h.length_le
  simp only [Part.level, Part.least, List.length_cons] at hn hl
  have h1 : paramList n ts = some (ps, .mark .colon :: r) :=
    h n (by simp only [Part.level]; omega)
  have h2 : member n r = some (t, rest) := ht n (by simp only [Part.level]; omega)
  simp [read, primary, h1, h2]

/-! ## Names -/

theorem dottedRest_of_lacks {rest : List Token} (h : Lacks .dot rest) :
    dottedRest rest = ([], rest) := by
  unfold dottedRest
  split
  · exact absurd rfl (h _)
  · rfl

theorem dottedName_of_dotted {parts : List String} {ts rest : List Token}
    (h : Dotted parts ts rest) (hr : Lacks .dot rest) :
    dottedName ts = some (".".intercalate parts, rest) := by
  have key : ∃ first more ts', parts = first :: more ∧ ts = .ident first :: ts' ∧
      dottedRest ts' = (more, rest) := by
    induction h with
    | @last name rest => exact ⟨name, [], rest, rfl, rfl, dottedRest_of_lacks hr⟩
    | @dot name parts ts rest h ih =>
      obtain ⟨first, more, ts', rfl, rfl, he⟩ := ih hr
      exact ⟨name, first :: more, _, rfl, rfl, by simp [dottedRest, he]⟩
  obtain ⟨first, more, ts', rfl, rfl, he⟩ := key
  simp [dottedName, he]

theorem Dotted.startsIdent {parts : List String} {ts rest : List Token}
    (h : Dotted parts ts rest) (hr : Lacks .openParen rest) :
    ∃ name r, ts = .ident name :: r ∧ Lacks .openParen r := by
  cases h with
  | last => exact ⟨_, _, rfl, hr⟩
  | dot h => exact ⟨_, _, rfl, by rintro r he; cases he⟩

theorem primary_ident {n : Nat} {name : String} {r : List Token} (h : Lacks .openParen r) :
    primary (n + 1) (.ident name :: r) = (do
      let (base, ts) ← dottedName (.ident name :: r)
      match ts with
      | .mark .less :: ts => typeArguments n base ts
      | .mark .dotLess :: ts => typeArguments n base ts
      | ts => some (ofName base, ts)) := by
  rw [primary]
  all_goals first
    | rfl
    | intros
      simp_all [Lacks]

theorem Reads.name {parts : List String} {ts rest : List Token} (h : Dotted parts ts rest)
    (hr : ∀ m ∈ [Mark.dot, .less, .dotLess, .openParen], Lacks m rest) :
    Reads .primary (ofName (".".intercalate parts)) ts rest := by
  refine .intro fun n hn => ?_
  have h1 := dottedName_of_dotted h (hr .dot (by decide))
  obtain ⟨first, r, rfl, hp⟩ := h.startsIdent (hr .openParen (by decide))
  simp only [read, primary_ident hp, h1, Option.bind_eq_bind, Option.bind_some]
  split
  · exact absurd rfl (hr .less (by decide) _)
  · exact absurd rfl (hr .dotLess (by decide) _)
  · rfl

theorem Reads.applied {parts : List String} {m : Mark} {t : TypeExpr} {us : List TypeExpr}
    {ts ts' r rest : List Token} (h : Dotted parts ts (.mark m :: ts'))
    (hm : m = .less ∨ m = .dotLess) (ht : Reads .typeList t ts' r)
    (hs : Reads .moreArguments us r (.mark .greater :: rest)) :
    Reads .primary (ofArguments (".".intercalate parts) t us) ts rest := by
  refine .intro fun n hn => ?_
  have hlacks : ∀ m' ∈ [Mark.dot, .openParen], Lacks m' (.mark m :: ts') := by
    intro m' hm' r' he
    cases he
    rcases hm with rfl | rfl <;> simp at hm'
  have h1 := dottedName_of_dotted h (hlacks .dot (by decide))
  have hl1 := h.length_lt
  have hl2 := ht.length_le
  simp only [Part.level, Part.least, List.length_cons] at hn hl1 hl2
  obtain ⟨k, rfl⟩ : ∃ k, n = k + 1 := ⟨n - 1, by omega⟩
  have h2 : typeList k ts' = some (t, r) := ht k (by simp only [Part.level]; omega)
  have h3 : moreArguments k r = some (us, .mark .greater :: rest) :=
    hs k (by simp only [Part.level]; omega)
  obtain ⟨first, r', rfl, hp⟩ := h.startsIdent (hlacks .openParen (by decide))
  rcases hm with rfl | rfl <;>
    simp [read, primary_ident hp, h1, typeArguments, h2, h3, expect]

/-! ## Arguments, parameters and fields -/

theorem Reads.noArguments {rest : List Token} (h : Lacks .comma rest) :
    Reads .moreArguments [] rest rest := by
  refine .intro fun n _ => ?_
  simp only [read]
  rw [moreArguments]
  exact h

theorem Reads.nextArgument {t : TypeExpr} {us : List TypeExpr} {ts r rest : List Token}
    (h : Reads .typeList t ts r) (hs : Reads .moreArguments us r rest) :
    Reads .moreArguments (t :: us) (.mark .comma :: ts) rest := by
  refine .intro fun n hn => ?_
  have hl := h.length_le
  simp only [Part.level, Part.least, List.length_cons] at hn hl
  have h1 : typeList n ts = some (t, r) := h n (by simp only [Part.level]; omega)
  have h2 : moreArguments n r = some (us, rest) := hs n (by simp only [Part.level]; omega)
  simp [read, moreArguments, h1, h2]

theorem Reads.emptyParams {rest : List Token} :
    Reads .paramList [] (.mark .closeParen :: rest) rest := by
  refine .intro fun n _ => ?_
  simp [read, paramList]

theorem Derives.lacks_of_param {q : Option String × TypeExpr} {ts rest : List Token}
    (h : Derives .param q ts rest) : Lacks .closeParen ts := by
  cases h with
  | named h => rintro r he; cases he
  | unnamed h => exact h.lacks rfl (by decide)

theorem Reads.params {q : Option String × TypeExpr} {ps : List (Option String × TypeExpr)}
    {ts r rest : List Token} (h : Reads .param q ts r)
    (hs : Reads .moreParams ps r (.mark .closeParen :: rest)) :
    Reads .paramList (q :: ps) ts rest := by
  refine .intro fun n hn => ?_
  have hl := h.length_le
  simp only [Part.level, Part.least] at hn hl
  have h1 : param n ts = some (q, r) := h n (by simp only [Part.level]; omega)
  have h2 : moreParams n r = some (ps, .mark .closeParen :: rest) :=
    hs n (by simp only [Part.level]; omega)
  simp only [read]
  rw [paramList]
  · simp [h1, h2, expect]
  · exact h.derives.lacks_of_param

theorem Reads.noParams {rest : List Token} (h : Lacks .comma rest) :
    Reads .moreParams [] rest rest := by
  refine .intro fun n _ => ?_
  simp only [read]
  rw [moreParams]
  exact h

theorem Reads.nextParam {q : Option String × TypeExpr} {ps : List (Option String × TypeExpr)}
    {ts r rest : List Token} (h : Reads .param q ts r) (hs : Reads .moreParams ps r rest) :
    Reads .moreParams (q :: ps) (.mark .comma :: ts) rest := by
  refine .intro fun n hn => ?_
  have hl := h.length_le
  simp only [Part.level, Part.least, List.length_cons] at hn hl
  have h1 : param n ts = some (q, r) := h n (by simp only [Part.level]; omega)
  have h2 : moreParams n r = some (ps, rest) := hs n (by simp only [Part.level]; omega)
  simp [read, moreParams, h1, h2]

theorem Reads.named {name : String} {t : TypeExpr} {ts rest : List Token}
    (h : Reads .typeList t ts rest) :
    Reads .param (some name, t) (.ident name :: .mark .colon :: ts) rest := by
  refine .intro fun n hn => ?_
  simp only [Part.level, List.length_cons] at hn
  have h1 : typeList n ts = some (t, rest) := h n (by simp only [Part.level]; omega)
  simp [read, param, h1]

theorem Reads.unnamed {t : TypeExpr} {ts rest : List Token} (h : Reads .typeList t ts rest)
    (hr : Lacks .colon rest) : Reads .param (none, t) ts rest := by
  refine .intro fun n hn => ?_
  simp only [Part.level] at hn
  have h1 : typeList n ts = some (t, rest) := h n (by simp only [Part.level]; omega)
  simp only [read]
  rw [param]
  · simp [h1]
  · rintro name r rfl
    rcases h.derives.opens rfl with ⟨_, _, he, _⟩ | ⟨_, _, he, rfl | hc⟩
    · cases he
    · cases he
      exact hr _ rfl
    · cases he
      exact hc rfl

theorem Reads.field {name : String} {t : TypeExpr} {ts rest : List Token}
    (h : Reads .typeList t ts rest) :
    Reads .field (name, t) (.ident name :: .mark .colon :: ts) rest := by
  refine .intro fun n hn => ?_
  simp only [Part.level, List.length_cons] at hn
  have h1 : typeList n ts = some (t, rest) := h n (by simp only [Part.level]; omega)
  simp [read, TypeExpr.field, h1]

theorem Reads.noFields {rest : List Token} (h : Lacks .comma rest) :
    Reads .moreFields [] rest rest := by
  refine .intro fun n _ => ?_
  simp only [read]
  rw [moreFields]
  exact h

theorem Reads.nextField {f : String × TypeExpr} {fs : List (String × TypeExpr)}
    {ts r rest : List Token} (h : Reads .field f ts r) (hs : Reads .moreFields fs r rest) :
    Reads .moreFields (f :: fs) (.mark .comma :: ts) rest := by
  refine .intro fun n hn => ?_
  have hl := h.length_le
  simp only [Part.level, Part.least, List.length_cons] at hn hl
  have h1 : TypeExpr.field n ts = some (f, r) := h n (by simp only [Part.level]; omega)
  have h2 : moreFields n r = some (fs, rest) := hs n (by simp only [Part.level]; omega)
  simp [read, moreFields, h1, h2]

/-! ## Whole lists of tokens -/

theorem ofTokens_of_reads {t : TypeExpr} {ts : List Token} (h : Reads .typeList t ts []) :
    ofTokens? ts = some t := by
  have h1 : typeList (depth ts) ts = some (t, []) :=
    h (depth ts) (by simp only [Part.level, depth]; omega)
  simp [ofTokens?, h1]

theorem derives_of_ofTokens {t : TypeExpr} {ts : List Token} (h : ofTokens? ts = some t) :
    Derives .typeList t ts [] := by
  unfold ofTokens? at h
  split at h
  · rename_i u he
    cases h
    have h1 : read .typeList (depth ts) ts = some (t, []) := he
    exact derives_of_read h1
  · cases h

end DocCheck.TypeExpr
