import DocCheck.TypeExpr.Parser

/-!
# The grammar of type expressions

The grammar as a relation: `Derives p t ts rest` says that the tokens `ts` are a
part `p` for the tree `t` with `rest` behind it. Unlike the readers a derivation
is free to stop early: an `=` or `[]` behind a function type may belong to its
return type or to the function. The tokens behind a part are kept in the relation
because a `?` or `...` with no type behind it may stand only before some of them.

Results:

* `Derives.length_le`: a part is made of the tokens in front of the rest.
* `Derives.opens`: the tokens that a type may start with.
* `derives_of_read`: what a reader takes from the tokens is derived by the grammar.
-/
namespace DocCheck.TypeExpr

/-- The parts of the grammar; `moreX` are the further items of a list behind its first one. -/
inductive Part where
  | typeList | moreMembers | member | unary | suffixed | primary | moreArguments
  | paramList | moreParams | param | field | moreFields
deriving DecidableEq

/-- What a part of the grammar stands for. -/
@[reducible] def Part.Tree : Part → Type
  | .typeList | .member | .unary | .suffixed | .primary => TypeExpr
  | .moreMembers | .moreArguments => List TypeExpr
  | .paramList | .moreParams => List (Option String × TypeExpr)
  | .param => Option String × TypeExpr
  | .field => String × TypeExpr
  | .moreFields => List (String × TypeExpr)

/-- A `?` or `...` may stand alone at the end and directly before these tokens. -/
def StandsAlone (rest : List Token) : Prop :=
  rest = [] ∨ ∃ m r, rest = .mark m :: r ∧
    (m = .bar ∨ m = .comma ∨ m = .greater ∨ m = .closeParen ∨ m = .closeBrace ∨ m = .equals ∨
      m = .colon)

/-- The tokens of a dotted name, with its parts. -/
inductive Dotted : List String → List Token → List Token → Prop where
  | last {name rest} : Dotted [name] (.ident name :: rest) rest
  | dot {name parts ts rest} (h : Dotted parts ts rest) :
      Dotted (name :: parts) (.ident name :: .mark .dot :: ts) rest

/-- The tokens `ts` are a part `p` for `t`, and `rest` behind it. -/
inductive Derives : (p : Part) → p.Tree → List Token → List Token → Prop where
  | single {t ts rest} (h : Derives .member t ts rest) : Derives .typeList t ts rest
  | union {t u us ts r rest} (h : Derives .member t ts r)
      (hs : Derives .moreMembers (u :: us) r rest) :
      Derives .typeList (.union (t :: u :: us)) ts rest
  | noMembers {rest} : Derives .moreMembers [] rest rest
  | nextMember {t us ts r rest} (h : Derives .member t ts r) (hs : Derives .moreMembers us r rest) :
      Derives .moreMembers (t :: us) (.mark .bar :: ts) rest
  | plain {t ts rest} (h : Derives .unary t ts rest) : Derives .member t ts rest
  | optional {t ts rest} (h : Derives .unary t ts (.mark .equals :: rest)) :
      Derives .member (.optional t) ts rest
  | anyNumber {rest} (h : StandsAlone rest) :
      Derives .member (.arrayOf (.native "*")) (.mark .ellipsis :: rest) rest
  | anyNumberOf {t ts rest} (h : Derives .unary t ts rest) :
      Derives .member (.arrayOf t) (.mark .ellipsis :: ts) rest
  | unknown {rest} (h : StandsAlone rest) :
      Derives .unary (.native "?") (.mark .question :: rest) rest
  | nullable {t ts rest} (h : Derives .unary t ts rest) :
      Derives .unary (.nullable t) (.mark .question :: ts) rest
  | nonNullable {t ts rest} (h : Derives .unary t ts rest) :
      Derives .unary (.nonNullable t) (.mark .bang :: ts) rest
  | bare {t ts rest} (h : Derives .suffixed t ts rest) : Derives .unary t ts rest
  | unsuffixed {t ts rest} (h : Derives .primary t ts rest) : Derives .suffixed t ts rest
  | array {t ts rest} (h : Derives .suffixed t ts (.mark .brackets :: rest)) :
      Derives .suffixed (.arrayOf t) ts rest
  | group {t ts rest} (h : Derives .typeList t ts (.mark .closeParen :: rest)) :
      Derives .primary t (.mark .openParen :: ts) rest
  | emptyRecord {rest} :
      Derives .primary (.record []) (.mark .openBrace :: .mark .closeBrace :: rest) rest
  | record {f fs ts r rest} (h : Derives .field f ts r)
      (hs : Derives .moreFields fs r (.mark .closeBrace :: rest)) :
      Derives .primary (.record (f :: fs)) (.mark .openBrace :: ts) rest
  | all {rest} : Derives .primary (.native "*") (.mark .star :: rest) rest
  | procedure {ps ts rest} (h : Derives .paramList ps ts rest) :
      Derives .primary (.function ps none) (.ident "function" :: .mark .openParen :: ts) rest
  | function {ps t ts r rest} (h : Derives .paramList ps ts (.mark .colon :: r))
      (ht : Derives .member t r rest) :
      Derives .primary (.function ps (some t)) (.ident "function" :: .mark .openParen :: ts) rest
  | name {parts ts rest} (h : Dotted parts ts rest) :
      Derives .primary (ofName (".".intercalate parts)) ts rest
  | applied {parts m t us ts ts' r rest} (h : Dotted parts ts (.mark m :: ts'))
      (hm : m = .less ∨ m = .dotLess) (ht : Derives .typeList t ts' r)
      (hs : Derives .moreArguments us r (.mark .greater :: rest)) :
      Derives .primary (ofArguments (".".intercalate parts) t us) ts rest
  | noArguments {rest} : Derives .moreArguments [] rest rest
  | nextArgument {t us ts r rest} (h : Derives .typeList t ts r)
      (hs : Derives .moreArguments us r rest) :
      Derives .moreArguments (t :: us) (.mark .comma :: ts) rest
  | emptyParams {rest} : Derives .paramList [] (.mark .closeParen :: rest) rest
  | params {p ps ts r rest} (h : Derives .param p ts r)
      (hs : Derives .moreParams ps r (.mark .closeParen :: rest)) :
      Derives .paramList (p :: ps) ts rest
  | noParams {rest} : Derives .moreParams [] rest rest
  | nextParam {p ps ts r rest} (h : Derives .param p ts r) (hs : Derives .moreParams ps r rest) :
      Derives .moreParams (p :: ps) (.mark .comma :: ts) rest
  | named {name t ts rest} (h : Derives .typeList t ts rest) :
      Derives .param (some name, t) (.ident name :: .mark .colon :: ts) rest
  | unnamed {t ts rest} (h : Derives .typeList t ts rest) : Derives .param (none, t) ts rest
  | field {name t ts rest} (h : Derives .typeList t ts rest) :
      Derives .field (name, t) (.ident name :: .mark .colon :: ts) rest
  | noFields {rest} : Derives .moreFields [] rest rest
  | nextField {f fs ts r rest} (h : Derives .field f ts r) (hs : Derives .moreFields fs r rest) :
      Derives .moreFields (f :: fs) (.mark .comma :: ts) rest

/-! ## What derivations have in common -/

/-- The least number of tokens that a part has. -/
def Part.least : Part → Nat
  | .moreMembers | .moreArguments | .moreParams | .moreFields => 0
  | _ => 1

theorem Dotted.length_lt {parts : List String} {ts rest : List Token} (h : Dotted parts ts rest) :
    rest.length + 1 ≤ ts.length := by
  induction h with
  | last => simp
  | dot h ih => simp only [List.length_cons]; omega

/-- A part is made of the tokens in front of the rest. -/
theorem Derives.length_le {p : Part} {t : p.Tree} {ts rest : List Token}
    (h : Derives p t ts rest) : rest.length + p.least ≤ ts.length := by
  induction h
  case name h => exact h.length_lt
  case applied h hm ht hs iht ihs =>
    have := h.length_lt
    simp only [List.length_cons, Part.least] at *
    omega
  all_goals
    simp only [List.length_cons, Part.least] at *
    omega

/-! ## The first tokens of a type -/

/-- The part is a type or a list of types. -/
def Part.isType : Part → Bool
  | .typeList | .member | .unary | .suffixed | .primary => true
  | _ => false

/-- The marks that a part may start with. -/
def Part.openers : Part → List Mark
  | .suffixed | .primary => [.openParen, .openBrace, .star]
  | .unary => [.question, .bang, .openParen, .openBrace, .star]
  | .typeList | .member => [.ellipsis, .question, .bang, .openParen, .openBrace, .star]
  | _ => []

/-- The tokens start with an opener of the part or with an identifier, and no colon stands behind
the identifier unless it is where the part ends. -/
def Opens (p : Part) (ts rest : List Token) : Prop :=
  (∃ m r, ts = .mark m :: r ∧ m ∈ p.openers) ∨
    ∃ name r, ts = .ident name :: r ∧ (r = rest ∨ r.head? ≠ some (.mark .colon))

theorem Opens.mono {p q : Part} {ts rest : List Token} (h : Opens p ts rest)
    (hpq : ∀ m ∈ p.openers, m ∈ q.openers) : Opens q ts rest := by
  rcases h with ⟨m, r, he, hm⟩ | h
  · exact .inl ⟨m, r, he, hpq m hm⟩
  · exact .inr h

theorem Opens.before {p : Part} {ts r rest : List Token} (h : Opens p ts r)
    (hr : r.head? ≠ some (.mark .colon)) : Opens p ts rest := by
  rcases h with h | ⟨name, r', he, rfl | hc⟩
  · exact .inl h
  · exact .inr ⟨name, r', he, .inr hr⟩
  · exact .inr ⟨name, r', he, .inr hc⟩

theorem Dotted.opens {parts : List String} {ts rest : List Token} (h : Dotted parts ts rest) :
    Opens .primary ts rest := by
  cases h with
  | last => exact .inr ⟨_, _, rfl, .inl rfl⟩
  | dot h => exact .inr ⟨_, _, rfl, .inr (by simp)⟩

/-- How the tokens of a type start. -/
theorem Derives.opens {p : Part} {t : p.Tree} {ts rest : List Token}
    (h : Derives p t ts rest) (hp : p.isType = true) : Opens p ts rest := by
  induction h
  case single h ih => exact (ih rfl).mono (by simp [Part.openers])
  case union h hs ih ihs =>
    cases hs
    exact ((ih rfl).before (by simp)).mono (by simp [Part.openers])
  case plain h ih => exact (ih rfl).mono (by simp +contextual [Part.openers])
  case optional h ih => exact ((ih rfl).before (by simp)).mono (by simp +contextual [Part.openers])
  case bare h ih => exact (ih rfl).mono (by simp +contextual [Part.openers])
  case unsuffixed h ih => exact (ih rfl).mono (by simp [Part.openers])
  case array h ih => exact (ih rfl).before (by simp)
  case name h => exact h.opens
  case applied h hm ht hs iht ihs =>
    rcases hm with rfl | rfl
    · exact h.opens.before (by simp)
    · exact h.opens.before (by simp)
  case procedure => exact .inr ⟨_, _, rfl, .inr (by simp)⟩
  case function => exact .inr ⟨_, _, rfl, .inr (by simp)⟩
  case anyNumber => exact .inl ⟨_, _, rfl, by simp [Part.openers]⟩
  case anyNumberOf => exact .inl ⟨_, _, rfl, by simp [Part.openers]⟩
  case unknown => exact .inl ⟨_, _, rfl, by simp [Part.openers]⟩
  case nullable => exact .inl ⟨_, _, rfl, by simp [Part.openers]⟩
  case nonNullable => exact .inl ⟨_, _, rfl, by simp [Part.openers]⟩
  case group => exact .inl ⟨_, _, rfl, by simp [Part.openers]⟩
  case emptyRecord => exact .inl ⟨_, _, rfl, by simp [Part.openers]⟩
  case record => exact .inl ⟨_, _, rfl, by simp [Part.openers]⟩
  case all => exact .inl ⟨_, _, rfl, by simp [Part.openers]⟩
  all_goals cases hp

/-! ## What the readers take is derived -/

def read : (p : Part) → Nat → List Token → Option (p.Tree × List Token)
  | .typeList => typeList
  | .moreMembers => moreMembers
  | .member => member
  | .unary => unary
  | .suffixed => fun
    | 0, _ => none
    | n + 1, ts => (primary n ts).map fun (t, ts) => arraySuffixes t ts
  | .primary => primary
  | .moreArguments => moreArguments
  | .paramList => paramList
  | .moreParams => moreParams
  | .param => param
  | .field => field
  | .moreFields => moreFields

theorem read_zero (p : Part) (ts : List Token) : read p 0 ts = none := by
  cases p <;> simp only [read, typeList, moreMembers, member, unary, primary, moreArguments,
    paramList, moreParams, param, field, moreFields]

theorem standsAlone_iff {rest : List Token} : StandsAlone rest ↔ mayFollowBare rest = true := by
  constructor
  · rintro (rfl | ⟨m, r, rfl, h⟩)
    · rfl
    · simpa [mayFollowBare] using h
  · intro h
    unfold mayFollowBare at h
    split at h
    · exact .inl rfl
    · cases h
    · rename_i m r
      exact .inr ⟨m, r, rfl, by simpa using h⟩

theorem expect_eq_some {m : Mark} {ts rest : List Token} (h : expect m ts = some rest) :
    ts = .mark m :: rest := by
  unfold expect at h
  split at h
  · split at h
    · rename_i hm
      simp only [Option.some.injEq] at h
      rw [hm, h]
    · cases h
  · cases h

/-- One reader whose tree goes into another. -/
theorem eq_some_of_bind {α β : Type} {x : Option (α × List Token)} {g : α → β} {b : β}
    {rest : List Token} (h : (do let (a, r) ← x; some (g a, r)) = some (b, rest)) :
    ∃ a, x = some (a, rest) ∧ b = g a := by
  simp only [Option.bind_eq_bind, Option.bind_eq_some_iff] at h
  obtain ⟨⟨a, r⟩, hx, he⟩ := h
  simp only [Option.some.injEq, Prod.mk.injEq] at he
  obtain ⟨rfl, rfl⟩ := he
  exact ⟨a, hx, rfl⟩

/-- One reader after another, whose trees go into a third. -/
theorem eq_some_of_bind_bind {α β γ : Type} {x : Option (α × List Token)}
    {f : List Token → Option (β × List Token)} {g : α → β → γ} {c : γ} {rest : List Token}
    (h : (do let (a, r) ← x; let (b, r) ← f r; some (g a b, r)) = some (c, rest)) :
    ∃ a r b, x = some (a, r) ∧ f r = some (b, rest) ∧ c = g a b := by
  simp only [Option.bind_eq_bind, Option.bind_eq_some_iff] at h
  obtain ⟨⟨a, r⟩, hx, ⟨b, r'⟩, hf, he⟩ := h
  simp only [Option.some.injEq, Prod.mk.injEq] at he
  obtain ⟨rfl, rfl⟩ := he
  exact ⟨a, r, b, hx, hf, rfl⟩

/-- One reader after another and a mark behind them, where the trees go into a third. -/
theorem eq_some_of_bind_bind_expect {α β γ : Type} {x : Option (α × List Token)}
    {f : List Token → Option (β × List Token)} {m : Mark} {g : α → β → γ} {c : γ}
    {rest : List Token}
    (h : (do let (a, r) ← x; let (b, r) ← f r; let r ← expect m r; some (g a b, r)) =
      some (c, rest)) :
    ∃ a r b, x = some (a, r) ∧ f r = some (b, .mark m :: rest) ∧ c = g a b := by
  simp only [Option.bind_eq_bind, Option.bind_eq_some_iff] at h
  obtain ⟨⟨a, r⟩, hx, ⟨b, r'⟩, hf, r'', he, hc⟩ := h
  simp only [Option.some.injEq, Prod.mk.injEq] at hc
  obtain ⟨rfl, rfl⟩ := hc
  have hr : r' = .mark m :: r'' := expect_eq_some he
  subst hr
  exact ⟨a, r, b, hx, hf, rfl⟩

theorem dotted_dottedRest (name : String) (ts : List Token) :
    Dotted (name :: (dottedRest ts).1) (.ident name :: ts) (dottedRest ts).2 := by
  fun_induction dottedRest ts generalizing name with
  | case1 part ts parts rest he ih =>
    rw [he] at ih
    exact .dot (ih part)
  | case2 ts hn => exact .last

theorem dotted_of_dottedName {name : String} {ts rest : List Token}
    (h : dottedName ts = some (name, rest)) :
    ∃ parts, name = ".".intercalate parts ∧ Dotted parts ts rest := by
  unfold dottedName at h
  split at h
  · rename_i first ts
    simp only [Option.some.injEq, Prod.mk.injEq] at h
    obtain ⟨rfl, rfl⟩ := h
    exact ⟨_, rfl, dotted_dottedRest first ts⟩
  · cases h

theorem derives_arraySuffixes {t : TypeExpr} {ts r : List Token} (h : Derives .suffixed t ts r) :
    Derives .suffixed (arraySuffixes t r).1 ts (arraySuffixes t r).2 := by
  fun_induction arraySuffixes t r with
  | case1 t r ih => exact ih (.array h)
  | case2 t r hn => exact h

section Readers

variable {n : Nat}
  (ih : ∀ (p : Part) (t : p.Tree) (ts rest : List Token),
    read p n ts = some (t, rest) → Derives p t ts rest)
include ih

theorem derives_typeList {t : TypeExpr} {ts rest : List Token}
    (h : typeList (n + 1) ts = some (t, rest)) : Derives .typeList t ts rest := by
  obtain ⟨first, r, more, h1, h2, rfl⟩ := eq_some_of_bind_bind h
  have d1 := ih .member first ts r h1
  have d2 := ih .moreMembers more r rest h2
  cases more with
  | nil => cases d2; exact .single d1
  | cons u us => exact .union d1 d2

theorem derives_moreMembers {us : List TypeExpr} {ts rest : List Token}
    (h : moreMembers (n + 1) ts = some (us, rest)) : Derives .moreMembers us ts rest := by
  rw [moreMembers.eq_def] at h
  split at h
  · cases ‹n + 1 = 0›
  · rename_i hn
    cases hn
    obtain ⟨t, r, more, h1, h2, rfl⟩ := eq_some_of_bind_bind h
    exact .nextMember (ih .member t _ r h1) (ih .moreMembers more r rest h2)
  · simp only [Option.some.injEq, Prod.mk.injEq] at h
    obtain ⟨rfl, rfl⟩ := h
    exact .noMembers

theorem derives_member {t : TypeExpr} {ts rest : List Token}
    (h : member (n + 1) ts = some (t, rest)) : Derives .member t ts rest := by
  rw [member.eq_def] at h
  split at h
  · cases ‹n + 1 = 0›
  · rename_i hn
    cases hn
    split at h
    · rename_i hb
      simp only [Option.some.injEq, Prod.mk.injEq] at h
      obtain ⟨rfl, rfl⟩ := h
      exact .anyNumber (standsAlone_iff.mpr hb)
    · obtain ⟨u, h1, rfl⟩ := eq_some_of_bind h
      exact .anyNumberOf (ih .unary u _ rest h1)
  · rename_i hn _
    cases hn
    simp only [Option.bind_eq_bind, Option.bind_eq_some_iff] at h
    obtain ⟨⟨u, r⟩, h1, he⟩ := h
    have d1 := ih .unary u _ r h1
    split at he
    · rename_i hr
      cases hr
      simp only [Option.some.injEq, Prod.mk.injEq] at he
      obtain ⟨rfl, rfl⟩ := he
      exact .optional d1
    · rename_i hr
      cases hr
      simp only [Option.some.injEq, Prod.mk.injEq] at he
      obtain ⟨rfl, rfl⟩ := he
      exact .plain d1

theorem derives_suffixed {t : TypeExpr} {ts rest : List Token}
    (h : read .suffixed (n + 1) ts = some (t, rest)) : Derives .suffixed t ts rest := by
  simp only [read, Option.map_eq_some_iff] at h
  obtain ⟨⟨u, r⟩, h1, he⟩ := h
  have d := derives_arraySuffixes (.unsuffixed (ih .primary u ts r h1))
  simp only at he
  rw [he] at d
  exact d

theorem derives_unary {t : TypeExpr} {ts rest : List Token}
    (h : unary (n + 1) ts = some (t, rest)) : Derives .unary t ts rest := by
  rw [unary.eq_def] at h
  split at h
  · cases ‹n + 1 = 0›
  · rename_i hn
    cases hn
    split at h
    · rename_i hb
      simp only [Option.some.injEq, Prod.mk.injEq] at h
      obtain ⟨rfl, rfl⟩ := h
      exact .unknown (standsAlone_iff.mpr hb)
    · obtain ⟨u, h1, rfl⟩ := eq_some_of_bind h
      exact .nullable (ih .unary u _ rest h1)
  · rename_i hn
    cases hn
    obtain ⟨u, h1, rfl⟩ := eq_some_of_bind h
    exact .nonNullable (ih .unary u _ rest h1)
  · rename_i hn _ _
    cases hn
    simp only [Option.bind_eq_bind, Option.bind_eq_some_iff] at h
    obtain ⟨⟨u, r⟩, h1, he⟩ := h
    simp only [Option.some.injEq] at he
    have d := derives_arraySuffixes (.unsuffixed (ih .primary u _ r h1))
    rw [he] at d
    exact .bare d

theorem derives_moreArguments {us : List TypeExpr} {ts rest : List Token}
    (h : moreArguments (n + 1) ts = some (us, rest)) : Derives .moreArguments us ts rest := by
  rw [moreArguments.eq_def] at h
  split at h
  · cases ‹n + 1 = 0›
  · rename_i hn
    cases hn
    obtain ⟨t, r, more, h1, h2, rfl⟩ := eq_some_of_bind_bind h
    exact .nextArgument (ih .typeList t _ r h1) (ih .moreArguments more r rest h2)
  · simp only [Option.some.injEq, Prod.mk.injEq] at h
    obtain ⟨rfl, rfl⟩ := h
    exact .noArguments

theorem derives_paramList {ps : List (Option String × TypeExpr)} {ts rest : List Token}
    (h : paramList (n + 1) ts = some (ps, rest)) : Derives .paramList ps ts rest := by
  rw [paramList.eq_def] at h
  split at h
  · cases ‹n + 1 = 0›
  · simp only [Option.some.injEq, Prod.mk.injEq] at h
    obtain ⟨rfl, rfl⟩ := h
    exact .emptyParams
  · rename_i hn _
    cases hn
    obtain ⟨first, r, more, h1, h2, rfl⟩ := eq_some_of_bind_bind_expect h
    exact .params (ih .param first _ r h1) (ih .moreParams more r _ h2)

theorem derives_moreParams {ps : List (Option String × TypeExpr)} {ts rest : List Token}
    (h : moreParams (n + 1) ts = some (ps, rest)) : Derives .moreParams ps ts rest := by
  rw [moreParams.eq_def] at h
  split at h
  · cases ‹n + 1 = 0›
  · rename_i hn
    cases hn
    obtain ⟨p, r, more, h1, h2, rfl⟩ := eq_some_of_bind_bind h
    exact .nextParam (ih .param p _ r h1) (ih .moreParams more r rest h2)
  · simp only [Option.some.injEq, Prod.mk.injEq] at h
    obtain ⟨rfl, rfl⟩ := h
    exact .noParams

theorem derives_param {q : Option String × TypeExpr} {ts rest : List Token}
    (h : param (n + 1) ts = some (q, rest)) : Derives .param q ts rest := by
  rw [param.eq_def] at h
  split at h
  · cases ‹n + 1 = 0›
  · rename_i hn
    cases hn
    obtain ⟨t, h1, rfl⟩ := eq_some_of_bind h
    exact .named (ih .typeList t _ rest h1)
  · rename_i hn _
    cases hn
    obtain ⟨t, h1, rfl⟩ := eq_some_of_bind h
    exact .unnamed (ih .typeList t _ rest h1)

theorem derives_field {f : String × TypeExpr} {ts rest : List Token}
    (h : field (n + 1) ts = some (f, rest)) : Derives .field f ts rest := by
  rw [field.eq_def] at h
  split at h
  · cases ‹n + 1 = 0›
  · rename_i hn
    cases hn
    obtain ⟨t, h1, rfl⟩ := eq_some_of_bind h
    exact .field (ih .typeList t _ rest h1)
  · cases h

theorem derives_moreFields {fs : List (String × TypeExpr)} {ts rest : List Token}
    (h : moreFields (n + 1) ts = some (fs, rest)) : Derives .moreFields fs ts rest := by
  rw [moreFields.eq_def] at h
  split at h
  · cases ‹n + 1 = 0›
  · rename_i hn
    cases hn
    obtain ⟨f, r, more, h1, h2, rfl⟩ := eq_some_of_bind_bind h
    exact .nextField (ih .field f _ r h1) (ih .moreFields more r rest h2)
  · simp only [Option.some.injEq, Prod.mk.injEq] at h
    obtain ⟨rfl, rfl⟩ := h
    exact .noFields

end Readers

theorem typeArguments_eq_some {n : Nat} {base : String} {t : TypeExpr} {ts rest : List Token}
    (h : typeArguments n base ts = some (t, rest)) :
    ∃ m first r more, m < n ∧ typeList m ts = some (first, r) ∧
      moreArguments m r = some (more, .mark .greater :: rest) ∧
      t = ofArguments base first more := by
  cases n with
  | zero => simp [typeArguments] at h
  | succ m =>
    obtain ⟨first, r, more, h1, h2, he⟩ := eq_some_of_bind_bind_expect h
    exact ⟨m, first, r, more, Nat.lt_succ_self m, h1, h2, he⟩

theorem derives_applied {n : Nat}
    (ih : ∀ m ≤ n, ∀ (p : Part) (t : p.Tree) (ts rest : List Token),
      read p m ts = some (t, rest) → Derives p t ts rest)
    {parts : List String} {m : Mark} {t : TypeExpr} {ts ts' rest : List Token}
    (hd : Dotted parts ts (.mark m :: ts')) (hm : m = .less ∨ m = .dotLess)
    (h : typeArguments n (".".intercalate parts) ts' = some (t, rest)) :
    Derives .primary t ts rest := by
  obtain ⟨k, first, r, more, hk, h1, h2, rfl⟩ := typeArguments_eq_some h
  have hk' : k ≤ n := Nat.le_of_lt hk
  exact .applied hd hm (ih k hk' .typeList first ts' r h1) (ih k hk' .moreArguments more r _ h2)

theorem derives_primary {n : Nat}
    (ih : ∀ m ≤ n, ∀ (p : Part) (t : p.Tree) (ts rest : List Token),
      read p m ts = some (t, rest) → Derives p t ts rest)
    {t : TypeExpr} {ts rest : List Token}
    (h : primary (n + 1) ts = some (t, rest)) : Derives .primary t ts rest := by
  have ihn := ih n (Nat.le_refl n)
  rw [primary.eq_def] at h
  split at h
  · cases ‹n + 1 = 0›
  · rename_i hn
    cases hn
    simp only [Option.bind_eq_bind, Option.bind_eq_some_iff] at h
    obtain ⟨⟨u, r⟩, h1, r', h2, he⟩ := h
    simp only [Option.some.injEq, Prod.mk.injEq] at he
    obtain ⟨rfl, rfl⟩ := he
    have hr : r = .mark .closeParen :: r' := expect_eq_some h2
    subst hr
    exact .group (ihn .typeList u _ _ h1)
  · simp only [Option.some.injEq, Prod.mk.injEq] at h
    obtain ⟨rfl, rfl⟩ := h
    exact .emptyRecord
  · rename_i hn
    cases hn
    obtain ⟨first, r, more, h1, h2, rfl⟩ :=
      eq_some_of_bind_bind_expect (g := fun first more => record (first :: more)) h
    exact .record (ihn .field first _ r h1) (ihn .moreFields more r _ h2)
  · simp only [Option.some.injEq, Prod.mk.injEq] at h
    obtain ⟨rfl, rfl⟩ := h
    exact .all
  · rename_i hn
    cases hn
    simp only [Option.bind_eq_bind, Option.bind_eq_some_iff] at h
    obtain ⟨⟨ps, r⟩, h1, he⟩ := h
    have d1 := ihn .paramList ps _ r h1
    split at he
    · rename_i hr
      cases hr
      simp only [Option.bind_eq_some_iff] at he
      obtain ⟨⟨u, r'⟩, h2, he⟩ := he
      simp only [Option.some.injEq, Prod.mk.injEq] at he
      obtain ⟨rfl, rfl⟩ := he
      exact .function d1 (ihn .member u _ r' h2)
    · rename_i hr
      simp only [Option.some.injEq, Prod.mk.injEq] at he
      obtain ⟨rfl, rfl⟩ := he
      exact .procedure d1
  · rename_i hn _ _ _ _ _
    cases hn
    simp only [Option.bind_eq_bind, Option.bind_eq_some_iff] at h
    obtain ⟨⟨base, r⟩, h1, he⟩ := h
    obtain ⟨parts, rfl, hd⟩ := dotted_of_dottedName h1
    split at he
    · rename_i hr
      cases hr
      exact derives_applied ih hd (.inl rfl) he
    · rename_i hr
      cases hr
      exact derives_applied ih hd (.inr rfl) he
    · simp only [Option.some.injEq, Prod.mk.injEq] at he
      obtain ⟨rfl, rfl⟩ := he
      exact .name hd

/-- What a reader takes from the tokens is derived by the grammar. -/
theorem derives_of_read {n : Nat} {p : Part} {t : p.Tree} {ts rest : List Token}
    (h : read p n ts = some (t, rest)) : Derives p t ts rest := by
  induction n using Nat.strongRecOn generalizing p ts rest with
  | ind n ih =>
  cases n with
  | zero => rw [read_zero] at h; cases h
  | succ n =>
    have ih' : ∀ m ≤ n, ∀ (p : Part) (t : p.Tree) (ts rest : List Token),
        read p m ts = some (t, rest) → Derives p t ts rest :=
      fun m hm p t ts rest => ih m (Nat.lt_succ_of_le hm)
    have ihn := ih' n (Nat.le_refl n)
    cases p with
    | typeList => exact derives_typeList ihn h
    | moreMembers => exact derives_moreMembers ihn h
    | member => exact derives_member ihn h
    | unary => exact derives_unary ihn h
    | suffixed => exact derives_suffixed ihn h
    | primary => exact derives_primary ih' h
    | moreArguments => exact derives_moreArguments ihn h
    | paramList => exact derives_paramList ihn h
    | moreParams => exact derives_moreParams ihn h
    | param => exact derives_param ihn h
    | field => exact derives_field ihn h
    | moreFields => exact derives_moreFields ihn h

end DocCheck.TypeExpr
