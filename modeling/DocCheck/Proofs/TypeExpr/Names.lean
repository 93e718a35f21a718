import DocCheck.Proofs.TypeExpr.Complete

/-!
# The names in a type

The names in a type are the identifiers that it is written with, in the order of
writing. An identifier in front of a colon names a field or a parameter, and
`function` in front of a parenthesis is a keyword: neither is a name. The names
`*` and `?` are no identifiers, and an array is a name in the tokens only; all
others are in the tree as often as in the tokens.

Results:

* `identifiers_dotted`: a dotted name is one identifier.
* `Derives.adds`: what a part adds to the identifiers behind it are the names in its tree.
* `names_eq_identifiers`: the names in a type that was read are the identifiers of its tokens.
-/
namespace DocCheck.TypeExpr

/-! ## Names in lists of types -/

theorem namesOfList_cons (t : TypeExpr) (ts : List TypeExpr) :
    namesOfList (t :: ts) = t.names ++ namesOfList ts := rfl

theorem namesOfParams_cons (p : Option String × TypeExpr) (ps : List (Option String × TypeExpr)) :
    namesOfParams (p :: ps) = p.2.names ++ namesOfParams ps := rfl

theorem namesOfFields_cons (f : String × TypeExpr) (fs : List (String × TypeExpr)) :
    namesOfFields (f :: fs) = f.2.names ++ namesOfFields fs := rfl

theorem mem_namesOfList {name : String} {ts : List TypeExpr} :
    name ∈ namesOfList ts ↔ ∃ t ∈ ts, name ∈ t.names := by
  induction ts with
  | nil => exact ⟨fun h => (List.not_mem_nil h).elim, fun h => by simp at h⟩
  | cons t ts ih => simp [namesOfList_cons, ih]

theorem mem_namesOfParams {name : String} {ps : List (Option String × TypeExpr)} :
    name ∈ namesOfParams ps ↔ ∃ p ∈ ps, name ∈ p.2.names := by
  induction ps with
  | nil => exact ⟨fun h => (List.not_mem_nil h).elim, fun h => by simp at h⟩
  | cons p ps ih => simp [namesOfParams_cons, ih]

theorem mem_namesOfFields {name : String} {fs : List (String × TypeExpr)} :
    name ∈ namesOfFields fs ↔ ∃ f ∈ fs, name ∈ f.2.names := by
  induction fs with
  | nil => exact ⟨fun h => (List.not_mem_nil h).elim, fun h => by simp at h⟩
  | cons f fs ih => simp [namesOfFields_cons, ih]

/-- The names in what a part of the grammar stands for. -/
def Part.names : (p : Part) → p.Tree → List String
  | .typeList | .member | .unary | .suffixed | .primary => TypeExpr.names
  | .moreMembers | .moreArguments => namesOfList
  | .paramList | .moreParams => namesOfParams
  | .param => fun p => p.2.names
  | .field => fun f => f.2.names
  | .moreFields => namesOfFields

/-! ## Identifiers -/

/-- The tokens with each chain of identifiers between dots joined into one identifier. -/
def joinDots : List Token → List Token
  | .ident a :: .mark .dot :: ts =>
    match joinDots ts with
    | .ident b :: r => .ident (a ++ "." ++ b) :: r
    | r => .ident a :: .mark .dot :: r
  | x :: ts => x :: joinDots ts
  | [] => []

/-- The identifier in front of the tokens names a field or a parameter, or is the keyword of a
function type. -/
def isLabel (name : String) : List Token → Bool
  | .mark .colon :: _ => true
  | .mark .openParen :: _ => name = "function"
  | _ => false

/-- The identifiers among tokens, but for labels. -/
def unlabeled : List Token → List String
  | [] => []
  | .mark _ :: ts => unlabeled ts
  | .ident name :: ts => if isLabel name ts then unlabeled ts else name :: unlabeled ts

/-- The identifiers that are written in tokens, dotted chains joined and labels left out. -/
def identifiers (ts : List Token) : List String := unlabeled (joinDots ts)

theorem identifiers_mark (m : Mark) (ts : List Token) :
    identifiers (.mark m :: ts) = identifiers ts := by
  simp [identifiers, joinDots, unlabeled]

theorem joinDots_ident {rest : List Token} (hr : Lacks .dot rest) (name : String) :
    joinDots (.ident name :: rest) = .ident name :: joinDots rest := by
  rw [joinDots]
  rintro _ ts _ rfl
  exact hr ts rfl

theorem identifiers_named (name : String) (ts : List Token) :
    identifiers (.ident name :: .mark .colon :: ts) = identifiers ts := by
  rw [identifiers, joinDots_ident (lacks_mark (by decide) _)]
  simp [identifiers, joinDots, unlabeled, isLabel]

theorem identifiers_function (ts : List Token) :
    identifiers (.ident "function" :: .mark .openParen :: ts) = identifiers ts := by
  rw [identifiers, joinDots_ident (lacks_mark (by decide) _)]
  simp [identifiers, joinDots, unlabeled, isLabel]

theorem joinDots_dotted {parts : List String} {ts rest : List Token} (h : Dotted parts ts rest)
    (hr : Lacks .dot rest) : joinDots ts = .ident (".".intercalate parts) :: joinDots rest := by
  induction h with
  | @last name rest =>
    rw [joinDots_ident hr]
    simp
  | @dot name parts ts rest h ih =>
    have hparts : parts ≠ [] := by
      cases h <;> simp
    rw [joinDots, ih hr]
    simp [String.intercalate_cons_of_ne_nil hparts]

/-- A dotted name is one identifier, whatever marks may stand behind a type. -/
theorem identifiers_dotted {parts : List String} {ts rest : List Token} {ms : List Mark}
    (h : Dotted parts ts rest) (hr : Follows ms rest)
    (hms : ∀ m ∈ ms, m ≠ .dot ∧ m ≠ .colon ∧ m ≠ .openParen) :
    identifiers ts = ".".intercalate parts :: identifiers rest := by
  have hdot : Lacks .dot rest := hr.lacks fun hm => (hms _ hm).1 rfl
  have hlabel : isLabel (".".intercalate parts) (joinDots rest) = false := by
    cases rest with
    | nil => rfl
    | cons x r =>
      obtain ⟨m, hm, rfl⟩ := hr x rfl
      obtain ⟨-, hcolon, hparen⟩ := hms m hm
      simp only [joinDots, isLabel]
      cases m <;> simp_all
  rw [identifiers, joinDots_dotted h hdot, unlabeled, hlabel]
  rfl

/-! ## Names and identifiers -/

/-- The names that the tree has if and only if the tokens have them. -/
def isShared (name : String) : Bool := !(["*", "?", "Array"].contains name)

/-- The shared names among some. -/
def shared (names : List String) : List String := names.filter isShared

theorem shared_append (xs ys : List String) : shared (xs ++ ys) = shared xs ++ shared ys :=
  List.filter_append ..

theorem shared_cons_ne {name : String} (h : isShared name = false) (xs : List String) :
    shared (name :: xs) = shared xs :=
  List.filter_cons_of_neg (by simp [h])

/-- The shared identifiers of the tokens are the shared ones of some names, and then those of the
rest. -/
def Adds (names : List String) (ts rest : List Token) : Prop :=
  shared (identifiers ts) = shared names ++ shared (identifiers rest)

theorem adds_nil (rest : List Token) : Adds [] rest rest := rfl

theorem Adds.append {xs ys : List String} {ts r rest : List Token} (h : Adds xs ts r)
    (hs : Adds ys r rest) : Adds (xs ++ ys) ts rest := by
  unfold Adds at *
  rw [h, hs, shared_append, List.append_assoc]

theorem Adds.behind {xs : List String} {ts rest : List Token} (h : Adds xs ts rest) (m : Mark) :
    Adds xs (.mark m :: ts) rest := by
  unfold Adds at *
  rw [identifiers_mark, h]

theorem Adds.before {xs : List String} {m : Mark} {ts rest : List Token}
    (h : Adds xs ts (.mark m :: rest)) : Adds xs ts rest := by
  unfold Adds at *
  rw [h, identifiers_mark]

theorem Adds.labeled {xs : List String} {ts rest : List Token} (h : Adds xs ts rest)
    (name : String) : Adds xs (.ident name :: .mark .colon :: ts) rest := by
  unfold Adds at *
  rw [identifiers_named, h]

theorem Adds.function {xs : List String} {ts rest : List Token} (h : Adds xs ts rest) :
    Adds xs (.ident "function" :: .mark .openParen :: ts) rest := by
  unfold Adds at *
  rw [identifiers_function, h]

/-- A name that is not shared stands in the tree only. -/
theorem adds_mark {name : String} (h : isShared name = false) (m : Mark) (rest : List Token) :
    Adds [name] (.mark m :: rest) rest := by
  rw [Adds, identifiers_mark, shared_cons_ne h]
  rfl

theorem Dotted.adds {parts : List String} {ts rest : List Token} {ms : List Mark}
    (h : Dotted parts ts rest) (hr : Follows ms rest)
    (hms : ∀ m ∈ ms, m ≠ .dot ∧ m ≠ .colon ∧ m ≠ .openParen) :
    Adds [".".intercalate parts] ts rest := by
  rw [Adds, identifiers_dotted h hr hms, ← shared_append]
  rfl

theorem names_ofName (name : String) : (ofName name).names = [name] := by
  unfold ofName
  split <;> rfl

/-- A name that is applied to types comes before the names in these; only arrays go without. -/
theorem shared_ofArguments (base : String) (t : TypeExpr) (us : List TypeExpr) :
    shared (ofArguments base t us).names = shared (base :: (t.names ++ namesOfList us)) := by
  unfold ofArguments
  split
  · rename_i h
    obtain ⟨rfl, rfl⟩ := h
    rw [shared_cons_ne (by decide), show namesOfList [] = [] from rfl, List.append_nil]
    rfl
  · rfl

/-- Each part of the grammar adds the names in its tree to the identifiers behind it. -/
theorem Derives.adds {p : Part} {t : p.Tree} {ts rest : List Token} (h : Derives p t ts rest)
    (hr : Follows p.follow rest) : Adds (p.names t) ts rest := by
  induction h
  case single h ih => exact ih (hr.mono (by decide))
  case union h hs ih ihs =>
    exact (ih ((hs.follows_moreMembers hr).mono (by decide))).append (ihs hr)
  case noMembers => exact adds_nil _
  case nextMember h hs ih ihs =>
    exact ((ih ((hs.follows_moreMembers hr).mono (by decide))).append (ihs hr)).behind .bar
  case plain h ih => exact ih hr
  case optional h ih => exact (ih (follows_mark (by decide) _)).before
  case anyNumber => exact adds_mark (by decide) .ellipsis _
  case anyNumberOf h ih => exact (ih hr).behind .ellipsis
  case unknown => exact adds_mark (by decide) .question _
  case nullable h ih => exact (ih hr).behind .question
  case nonNullable h ih => exact (ih hr).behind .bang
  case bare h ih => exact ih hr
  case unsuffixed h ih => exact ih hr
  case array h ih => exact (ih (follows_mark (by decide) _)).before
  case group h ih => exact (ih (follows_mark (by decide) _)).before.behind .openParen
  case emptyRecord rest => exact ((adds_nil rest).behind .closeBrace).behind .openBrace
  case record rest h hs ih ihs =>
    have hend : Follows [.closeBrace] (.mark .closeBrace :: rest) := follows_mark (by decide) rest
    exact ((ih (hs.follows_moreFields hend)).append (ihs hend).before).behind .openBrace
  case all => exact adds_mark (by decide) .star _
  case procedure rest h ih =>
    have hps := ih (hr.mono (by decide))
    exact (hps.append (adds_nil rest)).function
  case function h ht ih iht =>
    have hps := ih (follows_mark (by decide) _)
    exact (hps.before.append (iht hr)).function
  case name h =>
    have hname := h.adds hr (by decide)
    rwa [← names_ofName] at hname
  case applied m t us ts ts' r rest h hm ht hs iht ihs =>
    have hend : Follows [.greater] (.mark .greater :: rest) := follows_mark (by decide) rest
    have hangle : Follows [.less, .dotLess] (.mark m :: ts') := follows_mark (by simpa using hm) ts'
    have hbase := h.adds hangle (by decide)
    have htypes := (iht (hs.follows_moreArguments hend)).append (ihs hend).before
    have hall : Adds _ ts rest := hbase.before.append htypes
    exact hall.trans (congrArg (· ++ _) (shared_ofArguments _ t us).symm)
  case noArguments => exact adds_nil _
  case nextArgument h hs ih ihs =>
    exact ((ih (hs.follows_moreArguments hr)).append (ihs hr)).behind .comma
  case emptyParams rest => exact (adds_nil rest).behind .closeParen
  case params rest h hs ih ihs =>
    have hend : Follows [.closeParen] (.mark .closeParen :: rest) := follows_mark (by decide) rest
    exact (ih (hs.follows_moreParams hend)).append (ihs hend).before
  case noParams => exact adds_nil _
  case nextParam h hs ih ihs =>
    exact ((ih (hs.follows_moreParams hr)).append (ihs hr)).behind .comma
  case named name t ts rest h ih => exact (ih (hr.mono (by decide))).labeled name
  case unnamed h ih => exact ih (hr.mono (by decide))
  case field name t ts rest h ih => exact (ih (hr.mono (by decide))).labeled name
  case noFields => exact adds_nil _
  case nextField h hs ih ihs =>
    exact ((ih (hs.follows_moreFields hr)).append (ihs hr)).behind .comma

theorem Derivation.shared_names {cs : List Char} {t : TypeExpr} {ts : List Token}
    (h : Derivation cs t) (hts : tokenize cs = some ts) :
    shared t.names = shared (identifiers ts) := by
  obtain ⟨ts', hts', ht⟩ := h
  cases hts.symm.trans hts'
  have hadds : Adds t.names ts [] := ht.adds (follows_nil _)
  exact ((hadds.trans (List.append_nil _)).symm)

/-! ## Whole texts -/

/-- The tokens that a text is read from: those of the whole text, or else those between the braces
around it. -/
inductive ReadFrom (text : String) : List Token → Prop where
  | whole {ts} (hts : tokenize (Text.trim text.toList) = some ts)
      (h : Derivable (Text.trim text.toList)) : ReadFrom text ts
  | inside {inner ts} (hn : ¬ Derivable (Text.trim text.toList))
      (he : Text.trim text.toList = '{' :: (inner ++ ['}'])) (hts : tokenize inner = some ts)
      (h : Derivable inner) : ReadFrom text ts

theorem exists_readFrom {text : String} (h : (parse text).isUnknown = false) :
    ∃ ts, ReadFrom text ts := by
  rcases (parsed_parse text).isUnknown_iff.mp h with hd | ⟨inner, he, hd⟩
  · obtain ⟨t, ts, hts, ht⟩ := hd
    exact ⟨ts, .whole hts ⟨t, ts, hts, ht⟩⟩
  · by_cases hw : Derivable (Text.trim text.toList)
    · obtain ⟨t, ts, hts, ht⟩ := hw
      exact ⟨ts, .whole hts ⟨t, ts, hts, ht⟩⟩
    · obtain ⟨t, ts, hts, ht⟩ := hd
      exact ⟨ts, .inside hw he hts ⟨t, ts, hts, ht⟩⟩

theorem ReadFrom.derivation {text : String} {t : TypeExpr} {ts : List Token}
    (h : ReadFrom text ts) (hp : Parsed text t) :
    ∃ cs, tokenize cs = some ts ∧ Derivation cs t := by
  cases h with
  | whole hts hd =>
    cases hp with
    | whole h => exact ⟨_, hts, h⟩
    | inside hn => exact absurd hd hn
    | kept hn => exact absurd hd hn
  | inside hn he hts hd =>
    cases hp with
    | whole h => exact absurd ⟨t, h⟩ hn
    | inside _ he' h =>
      rw [he] at he'
      cases List.append_cancel_right (List.cons.inj he').2
      exact ⟨_, hts, h⟩
    | kept _ hi => exact absurd hd (hi _ he)

/-- Every type that is read is read from tokens, and the names in it are the identifiers of these
tokens, each as often as it is written and in the order of writing, but for `*`, `?` and `Array`;
an identifier in front of a colon and the keyword of a function type are no names. -/
theorem names_eq_identifiers (text : String) :
    ((parse text).isUnknown = false ↔ ∃ ts, ReadFrom text ts) ∧
    ∀ ts, ReadFrom text ts → shared (parse text).names = shared (identifiers ts) := by
  refine ⟨⟨exists_readFrom, ?_⟩, ?_⟩
  · rintro ⟨ts, h⟩
    obtain ⟨cs, -, hd⟩ := h.derivation (parsed_parse text)
    exact hd.isUnknown
  · intro ts h
    obtain ⟨cs, hts, hd⟩ := h.derivation (parsed_parse text)
    exact hd.shared_names hts

/-- Names at all depths, with a chain, a keyword, labels of both kinds and an array, in braces. -/
theorem names_eq_identifiers_handler :
    let text := " {?function(this: app . Node, Array.<{id: !Map<string, T[]>}>=): (A|*)}"
    (parse text).isUnknown = false ∧
      ∃ ts, ReadFrom text ts ∧ identifiers ts = ["app.Node", "Array", "Map", "string", "T", "A"] ∧
        shared (parse text).names = ["app.Node", "Map", "string", "T", "A"] := by
  intro text
  let inner := "?function(this: app . Node, Array.<{id: !Map<string, T[]>}>=): (A|*)".toList
  have hids : (tokenize inner).map identifiers =
      some ["app.Node", "Array", "Map", "string", "T", "A"] := by decide +kernel
  have hinner : (ofText? inner).isSome = true := by decide +kernel
  have hwhole : (ofText? (Text.trim text.toList)).isSome = false := by decide +kernel
  have hbraces : Text.trim text.toList = '{' :: (inner ++ ['}']) := by decide +kernel
  obtain ⟨ts, hts, hids⟩ := Option.map_eq_some_iff.mp hids
  have h : ReadFrom text ts :=
    .inside (not_derivable_of_ofText (by simpa using hwhole)) hbraces hts
      (derivable_iff.mpr (Option.isSome_iff_exists.mp hinner))
  obtain ⟨hread, hnames⟩ := names_eq_identifiers text
  refine ⟨hread.mpr ⟨ts, h⟩, ts, h, hids, ?_⟩
  rw [hnames ts h, hids]
  decide

end DocCheck.TypeExpr
