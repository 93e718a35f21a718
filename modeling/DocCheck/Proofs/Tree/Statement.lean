import DocCheck.Tree.Statement

/-!
# The statement of each kind of node

`ofNode` reads the statements inside a node by walking over its children. Said
with the filters and searches of lists, and once for each kind of node, that is
all that anything else has to know about it.

Results:

* `Node.size_lt_of_child` and its like: what is inside a node is smaller.
* `ofNode_block` to `ofNode_other`: the statement of a node of each kind.
-/
namespace DocCheck

namespace Node

/-- The statements of a case, without its value. -/
def caseParts (c : Node) : List Node :=
  (c.children.eraseP fun d => d.field == some "value").filter isPart

def switchCases (n : Node) : List Node :=
  match n.child? "body" with
  | none => []
  | some body => body.children.filter isPart

/-- The kinds of statements that return, jump, or hold other statements. -/
def controlKinds : List String :=
  ["return_statement", "throw_statement", "break_statement", "continue_statement",
    "statement_block", "else_clause", "if_statement", "for_statement", "for_in_statement",
    "while_statement", "do_statement", "switch_statement", "try_statement", "labeled_statement"]

/-! ## What is inside is smaller -/

theorem size_lt_of_mem_children {n c : Node} (h : c ∈ n.children) : c.size < n.size := by
  have := size_le_of_mem h
  have := n.size_eq
  omega

theorem size_lt_of_child {role : String} {n c : Node} (h : n.child? role = some c) :
    c.size < n.size :=
  size_lt_of_mem_children (List.mem_of_find?_eq_some h)

theorem size_lt_of_mem_caseParts {n c d : Node} (hc : c ∈ n.switchCases) (hd : d ∈ c.caseParts) :
    d.size < n.size := by
  have hdc : d.size < c.size :=
    size_lt_of_mem_children (List.mem_of_mem_eraseP (List.mem_filter.mp hd).1)
  unfold switchCases at hc
  split at hc
  · cases hc
  · rename_i body hb
    have hcb : c.size < body.size := size_lt_of_mem_children (List.mem_filter.mp hc).1
    have hbn : body.size < n.size := size_lt_of_child hb
    omega

end Node

namespace Statement

/-- The statement of a node that may be missing. -/
def ofOption : Option Node → Statement
  | none => .plain
  | some n => ofNode n

/-! ## Walks over the children -/

theorem parts_eq (cs : List Node) : parts cs = (cs.filter Node.isPart).map ofNode := by
  induction cs with
  | nil => rfl
  | cons c cs ih => by_cases h : c.isPart = true <;> simp [parts, h, ih]

theorem firstPart_eq (cs : List Node) : firstPart cs = ofOption (cs.find? Node.isPart) := by
  induction cs with
  | nil => rfl
  | cons c cs ih => by_cases h : c.isPart = true <;> simp [firstPart, h, ih, ofOption]

theorem ofRole_eq (role : String) (cs : List Node) :
    ofRole role cs = ofOption (cs.find? fun c => c.field == some role) := by
  induction cs with
  | nil => rfl
  | cons c cs ih => by_cases h : c.field = some role <;> simp [ofRole, h, ih, ofOption]

theorem ofRole_children (role : String) (n : Node) :
    ofRole role n.children = ofOption (n.child? role) :=
  ofRole_eq role n.children

theorem bodyOf_eq (n : Node) : bodyOf n = ofOption (n.child? "body") := by
  cases n
  exact ofRole_eq _ _

theorem bodyOfRole_children (role : String) (n : Node) :
    bodyOfRole role n.children =
      (n.child? role).map fun c => ofOption (c.child? "body") := by
  have key : ∀ cs : List Node, bodyOfRole role cs =
      (cs.find? fun c => c.field == some role).map fun c => ofOption (c.child? "body") := by
    intro cs
    induction cs with
    | nil => rfl
    | cons c cs ih =>
      by_cases h : c.field = some role <;> simp [bodyOfRole, h, ih, bodyOf_eq]
  exact key n.children

theorem caseBody_eq (c : Node) : caseBody c = c.caseParts.map ofNode := by
  have key : ∀ cs : List Node, partsButValue cs =
      ((cs.eraseP fun d => d.field == some "value").filter Node.isPart).map ofNode := by
    intro cs
    induction cs with
    | nil => rfl
    | cons d cs ih =>
      by_cases h : d.field = some "value"
      · simp [partsButValue, h, parts_eq]
      · by_cases hp : d.isPart = true <;> simp [partsButValue, h, hp, ih]
  cases c
  exact key _

/-- A case as the flow of a switch sees it. -/
def ofCase (c : Node) : Bool × List Statement :=
  (c.kind == "switch_default", c.caseParts.map ofNode)

theorem casesAmong_eq (cs : List Node) : casesAmong cs = (cs.filter Node.isPart).map ofCase := by
  induction cs with
  | nil => rfl
  | cons c cs ih => by_cases h : c.isPart = true <;> simp [casesAmong, h, ih, ofCase, caseBody_eq]

theorem casesOfBody_children (n : Node) : casesOfBody n.children = n.switchCases.map ofCase := by
  have key : ∀ cs : List Node, casesOfBody cs =
      match cs.find? fun c => c.field == some "body" with
      | none => []
      | some body => (body.children.filter Node.isPart).map ofCase := by
    intro cs
    induction cs with
    | nil => rfl
    | cons c cs ih =>
      by_cases h : c.field = some "body"
      · cases c
        simp [casesOfBody, h, casesIn, casesAmong_eq, Node.children]
      · simp [casesOfBody, h, ih]
  rw [key, Node.switchCases, Node.child?]
  split <;> simp_all

/-! ## One lemma for each kind of node -/

theorem ofNode_return {n : Node} (h : n.kind = "return_statement") :
    ofNode n = match n.children.find? Node.isPart with
      | some v => .value v.valueKinds
      | none => .bare := by
  cases n
  cases h
  rfl

theorem ofNode_throw {n : Node} (h : n.kind = "throw_statement") : ofNode n = .throw := by
  cases n
  cases h
  rfl

theorem ofNode_break {n : Node} (h : n.kind = "break_statement") :
    ofNode n = .breakTo (labelOf n.children) := by
  cases n
  cases h
  rfl

theorem ofNode_continue {n : Node} (h : n.kind = "continue_statement") :
    ofNode n = .continueTo (labelOf n.children) := by
  cases n
  cases h
  rfl

theorem ofNode_block {n : Node} (h : n.kind = "statement_block") :
    ofNode n = .block ((n.children.filter Node.isPart).map ofNode) := by
  rw [← parts_eq]
  cases n
  cases h
  rfl

theorem ofNode_else {n : Node} (h : n.kind = "else_clause") :
    ofNode n = ofOption (n.children.find? Node.isPart) := by
  rw [← firstPart_eq]
  cases n
  cases h
  rfl

theorem ofNode_if {n : Node} (h : n.kind = "if_statement") :
    ofNode n = .branch (ofOption (n.child? "consequence")) (ofOption (n.child? "alternative")) := by
  rw [← ofRole_children, ← ofRole_children]
  cases n
  cases h
  rfl

theorem ofNode_loop {n : Node} (h : isLoop n.kind = true) :
    ofNode n = .loop false (ofOption (n.child? "body")) := by
  rw [← ofRole_children]
  obtain ⟨kind, _, _, _, _, _, cs⟩ := n
  have hk : kind = "for_statement" ∨ kind = "for_in_statement" ∨ kind = "while_statement" := by
    simpa [isLoop, Node.kind] using h
  rcases hk with rfl | rfl | rfl <;> rfl

theorem ofNode_do {n : Node} (h : n.kind = "do_statement") :
    ofNode n = .loop true (ofOption (n.child? "body")) := by
  rw [← ofRole_children]
  cases n
  cases h
  rfl

theorem ofNode_switch {n : Node} (h : n.kind = "switch_statement") :
    ofNode n = .switch (n.switchCases.map ofCase) := by
  rw [← casesOfBody_children]
  cases n
  cases h
  rfl

theorem ofNode_try {n : Node} (h : n.kind = "try_statement") :
    ofNode n = .attempt (ofOption (n.child? "body"))
      ((n.child? "handler").map fun c => ofOption (c.child? "body"))
      ((n.child? "finalizer").map fun c => ofOption (c.child? "body")) := by
  rw [← ofRole_children, ← bodyOfRole_children, ← bodyOfRole_children]
  cases n
  cases h
  rfl

theorem ofNode_labeled {n : Node} (h : n.kind = "labeled_statement") :
    ofNode n = .labeled (n.childText "label") (ofOption (n.child? "body")) := by
  rw [← ofRole_children]
  cases n
  cases h
  rfl

theorem ofNode_other {n : Node} (h : n.kind ∉ Node.controlKinds) : ofNode n = .plain := by
  obtain ⟨kind, _, _, _, _, _, cs⟩ := n
  simp only [Node.kind, Node.controlKinds, List.mem_cons, List.not_mem_nil, or_false, not_or] at h
  simp [ofNode, isLoop, h]

end Statement

end DocCheck
