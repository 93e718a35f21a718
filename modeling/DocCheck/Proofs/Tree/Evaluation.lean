import DocCheck.Proofs.Tree.Expression
import DocCheck.Proofs.Tree.Shape

/-!
# Kinds of expressions cover their values

How the kind of a value comes about, read off the syntax tree. Of variables, members,
calls and the like nothing is known: their values may be of any kind. The kinds that
are told of an expression cover every kind that its value can have, or one of them
is the unknown one.

Results:

* `KindSet.Admits.union_left`, `KindSet.Admits.sum`: choices and sums cover what comes of them.
* `exists_evaluates`: every expression has a value of some kind.
* `kinds_admit_values`: the kinds of an expression cover its values.
-/
namespace DocCheck

/-! ## Sets of kinds and kinds of values -/

namespace KindSet

/-- A value of the kind is covered: the kind is in the set, or the set has the unknown kind. -/
def Admits (s : KindSet) (k : ValueKind) : Prop := s.has k = true ∨ s.has .unknown = true

theorem admits_single (k : ValueKind) : (single k).Admits k := .inl (by simp [single])

theorem admits_unknown (k : ValueKind) : (single .unknown).Admits k := .inr rfl

variable {s t : KindSet} {k k' : ValueKind}

theorem Admits.union_left (h : s.Admits k) : (s.union t).Admits k :=
  h.imp (fun h => by simp [h]) fun h => by simp [h]

theorem Admits.union_right (h : t.Admits k) : (s.union t).Admits k :=
  h.imp (fun h => by simp [h]) fun h => by simp [h]

/-- A set of one kind, other than the unknown one, covers no values but of this kind. -/
theorem Admits.eq_of_isSingle (h : s.Admits k') (hs : s.isSingle k = true) (hk : k ≠ .unknown) :
    k' = k := by
  have hone : ∀ j, s.has j = true → j = k := by
    intro j hj
    have hmem := mem_toList.mpr hj
    rw [eq_of_beq hs] at hmem
    exact List.mem_singleton.mp hmem
  rcases h with h | h
  · exact hone k' h
  · exact absurd (hone .unknown h).symm hk

end KindSet

/-- The kind of a sum of two values: a string if one of them is a string, a number if both are
numbers, and otherwise one or the other. -/
def ValueKind.Adds (a b k : ValueKind) : Prop :=
  if a = .string ∨ b = .string then k = .string
  else if a = .number ∧ b = .number then k = .number
  else k = .string ∨ k = .number

/-- The kinds of a sum cover the sums of all values that the kinds of its sides cover. -/
theorem KindSet.Admits.sum {s t : KindSet} {a b k : ValueKind} (ha : s.Admits a) (hb : t.Admits b)
    (hk : a.Adds b k) : (single (Node.sumKind (some s) (some t))).Admits k := by
  simp only [Node.sumKind, Option.any_some, Bool.or_eq_true, Bool.and_eq_true]
  split
  · rename_i hstring
    have hside : a = .string ∨ b = .string :=
      hstring.imp (ha.eq_of_isSingle · (by decide)) (hb.eq_of_isSingle · (by decide))
    rw [ValueKind.Adds, if_pos hside] at hk
    rw [hk]
    exact admits_single _
  · split
    · rename_i hnumber
      have ha := ha.eq_of_isSingle hnumber.1 (by decide)
      have hb := hb.eq_of_isSingle hnumber.2 (by decide)
      have hk : k = .number := by simpa [ValueKind.Adds, ha, hb] using hk
      rw [hk]
      exact admits_single _
    · exact admits_unknown k

namespace Node

/-! ## Shapes of expressions -/

/-- What may stand in parentheses beside an expression: its type, and comments as in markup. -/
def asideKinds : List String := ["type_annotation", "html_comment"]

/-- The node is an expression, if it stands in parentheses. -/
def isInner (n : Node) : Bool := n.isPart && !asideKinds.contains n.kind

/-- An expression has the parts that its form needs: parentheses one expression, a choice its two
branches, an operation its operator and sides; and what is built by the name of a constructor is
built by an identifier. -/
def fitsExpression (n : Node) : Bool :=
  if n.kind = "parenthesized_expression" then (n.children.filter isInner).length == 1
  else if n.kind = "ternary_expression" then
    (n.child? "consequence").isSome && (n.child? "alternative").isSome
  else if n.kind = "unary_expression" then (n.child? "operator").isSome
  else if n.kind = "binary_expression" then
    (n.child? "operator").isSome && (n.child? "left").isSome && (n.child? "right").isSome
  else if n.kind = "new_expression" then
    (n.child? "constructor").any fun c =>
      c.kind == "identifier" || !constructorNames.contains c.text
  else true

/-! ## Evaluation -/

/-- The forms of expressions that show the kind of their value. -/
def shownKinds : List (String × ValueKind) :=
  [("string", .string), ("template_string", .string), ("number", .number), ("true", .boolean),
    ("false", .boolean), ("null", .null), ("undefined", .undefined), ("object", .object),
    ("array", .array), ("regex", .regexp), ("function_expression", .function),
    ("function", .function), ("generator_function", .function), ("arrow_function", .function),
    ("class", .function)]

/-- The kinds of what the operators in front of an operand make of it. -/
def unaryKinds : List (String × ValueKind) :=
  [("!", .boolean), ("delete", .boolean), ("typeof", .string), ("-", .number), ("+", .number),
    ("~", .number), ("void", .undefined)]

/-- The operators between two operands that answer a question. -/
def questions : List String :=
  ["==", "!=", "===", "!==", "<", ">", "<=", ">=", "instanceof", "in"]

/-- The operators between two operands that make a number of whatever they are given. -/
def calculations : List String := ["-", "*", "/", "%", "**", "<<", ">>", ">>>", "&", "|", "^"]

/-- The expression may have a value of the kind. No `undefined` is taken for a variable. -/
inductive Evaluates : Node → ValueKind → Prop where
  | shown {n k} (h : (n.kind, k) ∈ shownKinds) : Evaluates n k
  | undefined {n} (h : n.kind = "identifier") (ht : n.text = "undefined") :
      Evaluates n .undefined
  | named {n k} (h : n.kind = "identifier") (ht : n.text ≠ "undefined") : Evaluates n k
  | inner {n e k} (h : n.kind = "parenthesized_expression")
      (he : n.children.find? isInner = some e) (hk : Evaluates e k) : Evaluates n k
  | choice {n e k} (h : n.kind = "ternary_expression")
      (he : n.child? "consequence" = some e ∨ n.child? "alternative" = some e)
      (hk : Evaluates e k) : Evaluates n k
  | unary {n o k} (h : n.kind = "unary_expression") (ho : n.child? "operator" = some o)
      (hk : (o.kind, k) ∈ unaryKinds) : Evaluates n k
  | otherUnary {n o k} (h : n.kind = "unary_expression") (ho : n.child? "operator" = some o)
      (hk : o.kind ∉ unaryKinds.map Prod.fst) : Evaluates n k
  | question {n o} (h : n.kind = "binary_expression") (ho : n.child? "operator" = some o)
      (hk : o.kind ∈ questions) : Evaluates n .boolean
  | calculation {n o} (h : n.kind = "binary_expression") (ho : n.child? "operator" = some o)
      (hk : o.kind ∈ calculations) : Evaluates n .number
  | sum {n o l r a b k} (h : n.kind = "binary_expression") (ho : n.child? "operator" = some o)
      (hp : o.kind = "+") (hl : n.child? "left" = some l) (hr : n.child? "right" = some r)
      (ha : Evaluates l a) (hb : Evaluates r b) (hk : a.Adds b k) : Evaluates n k
  | otherBinary {n o k} (h : n.kind = "binary_expression") (ho : n.child? "operator" = some o)
      (hk : o.kind ∉ questions ++ calculations ++ ["+"]) : Evaluates n k
  | built {n c k} (h : n.kind = "new_expression") (hc : n.child? "constructor" = some c)
      (hi : c.kind = "identifier")
      (hk : (c.text, k) ∈ constructorNames.zip [.array, .regexp, .function]) : Evaluates n k
  | created {n c} (h : n.kind = "new_expression") (hc : n.child? "constructor" = some c)
      (hn : ¬ (c.kind = "identifier" ∧ c.text ∈ constructorNames)) : Evaluates n .object
  | other {n k} (hs : n.kind ∉ shownKinds.map Prod.fst) (h : n.kind ∉ tellingForms) :
      Evaluates n k

/-! ## What the forms tell -/

theorem literalKind_of_mem {s : String} {k : ValueKind} (h : (s, k) ∈ shownKinds) :
    literalKind? s = some k := by
  have hall : ∀ p ∈ shownKinds, literalKind? p.1 = some p.2 := by decide
  exact hall _ h

theorem literalKind_of_not_mem {s : String} (h : s ∉ shownKinds.map Prod.fst) :
    literalKind? s = none := by
  simp only [shownKinds, List.map_cons, List.map_nil, List.mem_cons, List.not_mem_nil, or_false,
    not_or] at h
  unfold literalKind?
  split <;> simp_all

theorem unaryKind_of_mem {s : String} {k : ValueKind} (h : (s, k) ∈ unaryKinds) :
    unaryKind s = k := by
  have hall : ∀ p ∈ unaryKinds, unaryKind p.1 = p.2 := by decide
  exact hall _ h

theorem unaryKind_of_not_mem {s : String} (h : s ∉ unaryKinds.map Prod.fst) :
    unaryKind s = .unknown := by
  simp only [unaryKinds, List.map_cons, List.map_nil, List.mem_cons, List.not_mem_nil, or_false,
    not_or] at h
  unfold unaryKind
  split <;> simp_all

section

variable {o : String} {left right : Option KindSet}

theorem binaryKind_question (h : o ∈ questions) : binaryKind o left right = .boolean := by
  have hall : ∀ o ∈ questions, comparisonOperators.contains o = true := by decide
  rw [binaryKind, if_pos (hall o h)]

theorem binaryKind_calculation (h : o ∈ calculations) : binaryKind o left right = .number := by
  have hall : ∀ o ∈ calculations,
      comparisonOperators.contains o = false ∧ arithmeticOperators.contains o = true := by decide
  obtain ⟨hq, hc⟩ := hall o h
  rw [binaryKind, if_neg (by rw [hq]; decide), if_pos hc]

theorem binaryKind_plus : binaryKind "+" left right = sumKind left right := by
  rw [binaryKind, if_neg (by decide), if_neg (by decide), if_pos rfl]

theorem binaryKind_other (h : o ∉ questions ++ calculations ++ ["+"]) :
    binaryKind o left right = .unknown := by
  simp only [List.mem_append, not_or, List.mem_singleton] at h
  obtain ⟨⟨hq, hc⟩, hp⟩ := h
  have hq : ¬ comparisonOperators.contains o = true := fun h => hq (List.contains_iff_mem.mp h)
  have hc : ¬ arithmeticOperators.contains o = true := fun h => hc (List.contains_iff_mem.mp h)
  rw [binaryKind, if_neg hq, if_neg hc, if_neg hp]

end

/-! ## What the shape gives -/

section

variable {n : Node} (hs : n.isShaped fitsExpression = true)
include hs

/-- In parentheses stands one expression. -/
theorem inner_of_parenthesized (h : n.kind = "parenthesized_expression") :
    ∃ e, n.children.filter isInner = [e] := by
  have hfits := (fits_of_kind hs h (by decide)).1
  rw [fitsExpression, if_pos h, beq_iff_eq] at hfits
  exact List.length_eq_one_iff.mp hfits

theorem branches_of_ternary (h : n.kind = "ternary_expression") :
    ∃ a b, n.child? "consequence" = some a ∧ n.child? "alternative" = some b := by
  have hfits := (fits_of_kind hs h (by decide)).1
  rw [fitsExpression, if_neg (by rw [h]; decide), if_pos h, Bool.and_eq_true] at hfits
  obtain ⟨a, ha⟩ := Option.isSome_iff_exists.mp hfits.1
  obtain ⟨b, hb⟩ := Option.isSome_iff_exists.mp hfits.2
  exact ⟨a, b, ha, hb⟩

theorem operator_of_unary (h : n.kind = "unary_expression") :
    ∃ o, n.child? "operator" = some o := by
  have hfits := (fits_of_kind hs h (by decide)).1
  rw [fitsExpression, if_neg (by rw [h]; decide), if_neg (by rw [h]; decide), if_pos h] at hfits
  exact Option.isSome_iff_exists.mp hfits

theorem sides_of_binary (h : n.kind = "binary_expression") : ∃ o l r,
    n.child? "operator" = some o ∧ n.child? "left" = some l ∧ n.child? "right" = some r := by
  have hfits := (fits_of_kind hs h (by decide)).1
  rw [fitsExpression, if_neg (by rw [h]; decide), if_neg (by rw [h]; decide),
    if_neg (by rw [h]; decide), if_pos h, Bool.and_eq_true, Bool.and_eq_true] at hfits
  obtain ⟨o, ho⟩ := Option.isSome_iff_exists.mp hfits.1.1
  obtain ⟨l, hl⟩ := Option.isSome_iff_exists.mp hfits.1.2
  obtain ⟨r, hr⟩ := Option.isSome_iff_exists.mp hfits.2
  exact ⟨o, l, r, ho, hl, hr⟩

/-- What reads as the name of a constructor is an identifier. -/
theorem constructor_of_new (h : n.kind = "new_expression") : ∃ c,
    n.child? "constructor" = some c ∧ (c.text ∈ constructorNames → c.kind = "identifier") := by
  have hfits := (fits_of_kind hs h (by decide)).1
  rw [fitsExpression, if_neg (by rw [h]; decide), if_neg (by rw [h]; decide),
    if_neg (by rw [h]; decide), if_neg (by rw [h]; decide), if_pos h] at hfits
  cases hc : n.child? "constructor" with
  | none =>
    rw [hc] at hfits
    cases hfits
  | some c =>
    rw [hc, Option.any_some, Bool.or_eq_true, beq_iff_eq] at hfits
    refine ⟨c, rfl, fun ht => hfits.resolve_right ?_⟩
    simp [ht]

end

/-! ## Every value is covered -/

section

variable {n e : Node} {k : ValueKind}

/-- What stands beside the expression in parentheses tells nothing. -/
theorem valueKinds_aside (hp : n.isPart = true) (h : n.isInner = false) :
    n.valueKinds = .single .unknown := by
  rw [isInner, hp, Bool.true_and, Bool.not_eq_false', List.contains_iff_mem] at h
  have hshown : ∀ s ∈ asideKinds, s ∉ shownKinds.map Prod.fst := by decide
  have htells : ∀ s ∈ asideKinds, s ∉ tellingForms := by decide
  exact valueKinds_other (literalKind_of_not_mem (hshown _ h)) (htells _ h)

/-- Of the expression in parentheses the kinds are told, unless something else stands behind it. -/
theorem admits_parenthesized (hs : n.isShaped fitsExpression = true)
    (h : n.kind = "parenthesized_expression") (he : n.children.find? isInner = some e)
    (hk : e.valueKinds.Admits k) : n.valueKinds.Admits k := by
  rw [valueKinds_parenthesized h]
  cases hlast : (n.children.filter isPart).getLast? with
  | none => exact KindSet.admits_unknown k
  | some last =>
    obtain ⟨hmem, hp⟩ := List.mem_filter.mp (List.mem_of_getLast? hlast)
    rw [Option.map_some, Option.getD_some]
    by_cases hi : last.isInner = true
    · obtain ⟨d, hone⟩ := inner_of_parenthesized hs h
      have hd : last = d := by
        have hin := List.mem_filter.mpr ⟨hmem, hi⟩
        rw [hone] at hin
        exact List.mem_singleton.mp hin
      rw [← List.head?_filter, hone] at he
      cases he
      rw [hd]
      exact hk
    · rw [valueKinds_aside hp (Bool.not_eq_true _ ▸ hi)]
      exact KindSet.admits_unknown k

theorem admits_ternary (hs : n.isShaped fitsExpression = true)
    (h : n.kind = "ternary_expression")
    (he : n.child? "consequence" = some e ∨ n.child? "alternative" = some e)
    (hk : e.valueKinds.Admits k) : n.valueKinds.Admits k := by
  obtain ⟨a, b, ha, hb⟩ := branches_of_ternary hs h
  rw [ha, hb] at he
  rw [valueKinds_ternary h, ha, hb]
  rcases he with he | he
  · cases he
    exact hk.union_left
  · cases he
    exact hk.union_right

/-- The kinds of an expression cover all its values. -/
theorem Evaluates.admits (h : Evaluates n k) (hs : n.isShaped fitsExpression = true) :
    n.valueKinds.Admits k := by
  induction h with
  | shown h =>
    rw [valueKinds_literal (literalKind_of_mem h)]
    exact KindSet.admits_single _
  | undefined h ht =>
    rw [valueKinds_identifier h, if_pos ht]
    exact KindSet.admits_single _
  | named h ht =>
    rw [valueKinds_identifier h, if_neg ht]
    exact KindSet.admits_unknown _
  | inner h he _ ih =>
    have hall := (fits_of_kind hs h (by decide)).2
    exact admits_parenthesized hs h he (ih (hall _ (List.mem_of_find?_eq_some he)))
  | choice h he _ ih =>
    have hall := (fits_of_kind hs h (by decide)).2
    exact admits_ternary hs h he (ih (hall _ (he.elim mem_of_child mem_of_child)))
  | unary h ho hk =>
    rw [valueKinds_unary h, childKind_eq ho, unaryKind_of_mem hk]
    exact KindSet.admits_single _
  | otherUnary h ho hk =>
    rw [valueKinds_unary h, childKind_eq ho, unaryKind_of_not_mem hk]
    exact KindSet.admits_unknown _
  | question h ho hk =>
    rw [valueKinds_binary h, childKind_eq ho, binaryKind_question hk]
    exact KindSet.admits_single _
  | calculation h ho hk =>
    rw [valueKinds_binary h, childKind_eq ho, binaryKind_calculation hk]
    exact KindSet.admits_single _
  | sum h ho hp hl hr _ _ hk iha ihb =>
    have hall := (fits_of_kind hs h (by decide)).2
    rw [valueKinds_binary h, childKind_eq ho, hp, binaryKind_plus, hl, hr]
    exact (iha (hall _ (mem_of_child hl))).sum (ihb (hall _ (mem_of_child hr))) hk
  | otherBinary h ho hk =>
    rw [valueKinds_binary h, childKind_eq ho, binaryKind_other hk]
    exact KindSet.admits_unknown _
  | built h hc _ hk =>
    have hall : ∀ p ∈ constructorNames.zip [ValueKind.array, .regexp, .function],
        constructedKind p.1 = p.2 := by decide
    rw [valueKinds_new h, childText_eq hc, hall _ hk]
    exact KindSet.admits_single _
  | created h hc hn =>
    obtain ⟨_, hc', hname⟩ := constructor_of_new hs h
    cases hc.symm.trans hc'
    rw [valueKinds_new h, childText_eq hc,
      constructedKind_of_not_mem fun ht => hn ⟨hname ht, ht⟩]
    exact KindSet.admits_single _
  | other hn h =>
    rw [valueKinds_other (literalKind_of_not_mem hn) h]
    exact KindSet.admits_unknown _

end

/-! ## Every expression has a value -/

theorem exists_adds (a b : ValueKind) : ∃ k, a.Adds b k := by
  unfold ValueKind.Adds
  split
  · exact ⟨_, rfl⟩
  · split
    · exact ⟨_, rfl⟩
    · exact ⟨_, .inl rfl⟩

section

variable {n : Node} (hs : n.isShaped fitsExpression = true)
include hs

theorem exists_evaluates_unary (h : n.kind = "unary_expression") : ∃ k, Evaluates n k := by
  obtain ⟨o, ho⟩ := operator_of_unary hs h
  by_cases hk : o.kind ∈ unaryKinds.map Prod.fst
  · obtain ⟨⟨_, k⟩, hk, rfl⟩ := List.mem_map.mp hk
    exact ⟨k, .unary h ho hk⟩
  · exact ⟨.unknown, .otherUnary h ho hk⟩

theorem exists_evaluates_new (h : n.kind = "new_expression") : ∃ k, Evaluates n k := by
  obtain ⟨c, hc, -⟩ := constructor_of_new hs h
  by_cases hi : c.kind = "identifier" ∧ c.text ∈ constructorNames
  · have hbuilt : ∀ s ∈ constructorNames, ∃ k,
        (s, k) ∈ constructorNames.zip [ValueKind.array, .regexp, .function] := by
      simp [constructorNames]
    obtain ⟨k, hk⟩ := hbuilt _ hi.2
    exact ⟨k, .built h hc hi.1 hk⟩
  · exact ⟨.object, .created h hc hi⟩

/-- An operation on two sides that have values has one. -/
theorem exists_evaluates_binary (h : n.kind = "binary_expression")
    (ih : ∀ c ∈ n.children, ∃ k, Evaluates c k) : ∃ k, Evaluates n k := by
  obtain ⟨o, l, r, ho, hl, hr⟩ := sides_of_binary hs h
  by_cases hk : o.kind ∈ questions ++ calculations ++ ["+"]
  · simp only [List.mem_append, List.mem_singleton] at hk
    obtain (hq | hc) | hp := hk
    · exact ⟨.boolean, .question h ho hq⟩
    · exact ⟨.number, .calculation h ho hc⟩
    · obtain ⟨a, ha⟩ := ih l (mem_of_child hl)
      obtain ⟨b, hb⟩ := ih r (mem_of_child hr)
      obtain ⟨k, hk⟩ := exists_adds a b
      exact ⟨k, .sum h ho hp hl hr ha hb hk⟩
  · exact ⟨.unknown, .otherBinary h ho hk⟩

/-- An expression of a form that tells something has a value if the expressions in it have. -/
theorem exists_evaluates_of_mem (h : n.kind ∈ tellingForms)
    (ih : ∀ c ∈ n.children, ∃ k, Evaluates c k) : ∃ k, Evaluates n k := by
  simp only [tellingForms, List.mem_cons, List.not_mem_nil, or_false] at h
  rcases h with h | h | h | h | h | h
  · by_cases ht : n.text = "undefined"
    · exact ⟨.undefined, .undefined h ht⟩
    · exact ⟨.unknown, .named h ht⟩
  · obtain ⟨e, hone⟩ := inner_of_parenthesized hs h
    have he : n.children.find? isInner = some e := by
      rw [← List.head?_filter, hone]
      rfl
    obtain ⟨k, hk⟩ := ih e (List.mem_of_find?_eq_some he)
    exact ⟨k, .inner h he hk⟩
  · obtain ⟨a, _, ha, -⟩ := branches_of_ternary hs h
    obtain ⟨k, hk⟩ := ih a (mem_of_child ha)
    exact ⟨k, .choice h (.inl ha) hk⟩
  · exact exists_evaluates_new hs h
  · exact exists_evaluates_unary hs h
  · exact exists_evaluates_binary hs h ih

end

/-- Every expression may have a value of some kind. -/
theorem exists_evaluates (n : Node) (hs : n.isShaped fitsExpression = true) :
    ∃ k, Evaluates n k := by
  induction n using inductionOn with
  | h n ih =>
  by_cases hshown : n.kind ∈ shownKinds.map Prod.fst
  · obtain ⟨⟨_, k⟩, hk, he⟩ := List.mem_map.mp hshown
    exact ⟨k, .shown (he ▸ hk)⟩
  by_cases htells : n.kind ∈ tellingForms
  · have hopen : n.kind ∉ sealedKinds := by
      have hall : ∀ s ∈ tellingForms, s ∉ sealedKinds := by decide
      exact hall _ htells
    have hall := (fits_of_isShaped hs (not_isSealed hopen)).2
    exact exists_evaluates_of_mem hs htells fun c hc => ih c hc (hall c hc)
  · exact ⟨.unknown, .other hshown htells⟩

/-- An expression of a shape that a grammar gives it has values, and of each value the kind is
among the kinds that are told of the expression, or the unknown kind is. -/
theorem kinds_admit_values (e : Node) (hs : e.isShaped fitsExpression = true) :
    (∃ k, Evaluates e k) ∧
      ∀ k, Evaluates e k → e.valueKinds.has k = true ∨ e.valueKinds.has .unknown = true :=
  ⟨exists_evaluates e hs, fun _ hk => hk.admits hs⟩

/-- The expression `(x ? 1 : y) + ('a' + z)`. -/
def greeting : Node :=
  .mk "binary_expression" true none "(x ? 1 : y) + ('a' + z)" 0 0
    [.mk "parenthesized_expression" true (some "left") "(x ? 1 : y)" 0 0
      [.mk "ternary_expression" true none "x ? 1 : y" 0 1
        [.mk "identifier" true (some "condition") "x" 0 1 [],
          .mk "number" true (some "consequence") "1" 0 5 [],
          .mk "identifier" true (some "alternative") "y" 0 9 []]],
      .mk "+" false (some "operator") "+" 0 12 [],
      .mk "parenthesized_expression" true (some "right") "('a' + z)" 0 14
        [.mk "binary_expression" true none "'a' + z" 0 15
          [.mk "string" true (some "left") "'a'" 0 15 [],
            .mk "+" false (some "operator") "+" 0 19 [],
            .mk "identifier" true (some "right") "z" 0 21 []]]]

/-- Whatever the variables are, the sum is a string, as its right side is. -/
theorem kinds_admit_values_greeting : greeting.isShaped fitsExpression = true ∧
    greeting.valueKinds = .single .string ∧ Evaluates greeting .string ∧
    ∀ k, Evaluates greeting k → k = .string := by
  have hs : greeting.isShaped fitsExpression = true := rfl
  have hstring : greeting.valueKinds = .single .string := rfl
  obtain ⟨⟨k, hk⟩, hall⟩ := kinds_admit_values greeting hs
  have hone : ∀ k, Evaluates greeting k → k = .string := fun k hk =>
    KindSet.Admits.eq_of_isSingle (hall k hk) (by rw [hstring]; rfl) (by decide)
  exact ⟨hs, hstring, hone k hk ▸ hk, hone⟩

end Node

end DocCheck
