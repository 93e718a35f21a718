import DocCheck.Tree.Kinds

/-!
# The kinds of each form of expression

`valueKinds` finds the parts of an expression by walking over its children. Said
with the searches of lists, and once for each form of expression, that is all that
anything else has to know about it.

Results:

* `valueKinds_literal` to `valueKinds_other`: the kinds of an expression of each form.
-/
namespace DocCheck.Node

/-! ## Walks over the children -/

theorem mem_of_child {role : String} {n c : Node} (h : n.child? role = some c) : c ∈ n.children :=
  List.mem_of_find?_eq_some h

/-- The kind of the first child that plays a role; empty if there is none. -/
def childKind (role : String) (n : Node) : String :=
  match n.child? role with
  | some c => c.kind
  | none => ""

theorem childKind_eq {role : String} {n c : Node} (h : n.child? role = some c) :
    n.childKind role = c.kind := by
  rw [childKind, h]

theorem childText_eq {role : String} {n c : Node} (h : n.child? role = some c) :
    n.childText role = c.text := by
  rw [childText, h]

theorem kindsOfRole_eq (role : String) (cs : List Node) :
    kindsOfRole role cs = (cs.find? fun c => c.field == some role).map valueKinds := by
  induction cs with
  | nil => rfl
  | cons c cs ih => by_cases h : c.field = some role <;> simp [kindsOfRole, h, ih]

theorem kindsOfRole_children (role : String) (n : Node) :
    kindsOfRole role n.children = (n.child? role).map valueKinds :=
  kindsOfRole_eq role n.children

theorem kindsOfLast_eq (cs : List Node) :
    kindsOfLast cs = ((cs.filter isPart).getLast?).map valueKinds := by
  induction cs with
  | nil => rfl
  | cons c cs ih =>
    by_cases h : c.isPart = true
    · rw [kindsOfLast, ih, List.filter_cons_of_pos h, List.getLast?_cons]
      cases (cs.filter isPart).getLast? <;> simp [h]
    · rw [kindsOfLast, ih, List.filter_cons_of_neg h]
      cases (cs.filter isPart).getLast? <;> simp [h]

/-! ## Names of constructors -/

/-- The names of constructors that build values of kinds of their own. -/
def constructorNames : List String := ["Array", "RegExp", "Function"]

theorem constructedKind_of_not_mem {s : String} (h : s ∉ constructorNames) :
    constructedKind s = .object := by
  simp only [constructorNames, List.mem_cons, List.not_mem_nil, or_false, not_or] at h
  unfold constructedKind
  split <;> simp_all

/-! ## One lemma for each form -/

section

variable {n : Node}

theorem valueKinds_literal {k : ValueKind} (h : literalKind? n.kind = some k) :
    n.valueKinds = .single k := by
  obtain ⟨kind, _, _, _, _, _, _⟩ := n
  have hk : literalKind? kind = some k := h
  rw [valueKinds, hk]

theorem valueKinds_identifier (h : n.kind = "identifier") :
    n.valueKinds = .single (if n.text = "undefined" then .undefined else .unknown) := by
  cases n
  cases h
  rfl

theorem valueKinds_parenthesized (h : n.kind = "parenthesized_expression") :
    n.valueKinds =
      (((n.children.filter isPart).getLast?).map valueKinds).getD (.single .unknown) := by
  rw [← kindsOfLast_eq]
  cases n
  cases h
  rfl

theorem valueKinds_ternary (h : n.kind = "ternary_expression") :
    n.valueKinds = ((n.child? "consequence").bind fun a => (n.child? "alternative").map fun b =>
      a.valueKinds.union b.valueKinds).getD (.single .unknown) := by
  have ha := kindsOfRole_children "consequence" n
  have hb := kindsOfRole_children "alternative" n
  generalize n.child? "consequence" = a, n.child? "alternative" = b at ha hb ⊢
  have hl : literalKind? "ternary_expression" = none := rfl
  obtain ⟨kind, _, _, _, _, _, cs⟩ := n
  cases h
  rw [Node.children] at ha hb
  rw [valueKinds, hl]
  simp only [ha, hb, String.reduceEq, if_false, if_true]
  cases a <;> cases b <;> rfl

theorem valueKinds_new (h : n.kind = "new_expression") :
    n.valueKinds = .single (constructedKind (n.childText "constructor")) := by
  cases n
  cases h
  rfl

theorem valueKinds_unary (h : n.kind = "unary_expression") :
    n.valueKinds = .single (unaryKind (n.childKind "operator")) := by
  cases n
  cases h
  rfl

theorem valueKinds_binary (h : n.kind = "binary_expression") :
    n.valueKinds = .single (binaryKind (n.childKind "operator")
      ((n.child? "left").map valueKinds) ((n.child? "right").map valueKinds)) := by
  rw [← kindsOfRole_children, ← kindsOfRole_children]
  cases n
  cases h
  rfl

/-- The forms of expressions that are no literals but tell something of their kinds. -/
def tellingForms : List String :=
  ["identifier", "parenthesized_expression", "ternary_expression", "new_expression",
    "unary_expression", "binary_expression"]

theorem valueKinds_other (hl : literalKind? n.kind = none) (h : n.kind ∉ tellingForms) :
    n.valueKinds = .single .unknown := by
  obtain ⟨kind, _, _, _, _, _, _⟩ := n
  have hk : literalKind? kind = none := hl
  simp only [Node.kind, tellingForms, List.mem_cons, List.not_mem_nil, or_false, not_or] at h
  rw [valueKinds, hk]
  simp [h]

end

end DocCheck.Node
