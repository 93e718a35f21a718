import DocCheck.Proofs.Tree.Kinds
import DocCheck.Tree.Function

/-!
# Trees of a shape

What a grammar says of its trees it says of each node and of the nodes directly in
it. A tree has a shape if each of its nodes has it, but for those inside functions
and classes: what is said of a function or class has nothing to do with them.

Results:

* `isShaped_iff`: a tree has a shape if its root has it and so have the trees below.
* `fits_of_isShaped`: the same, of a node that is no function or class.
-/
namespace DocCheck.Node

def sealedKinds : List String :=
  Place.functionKinds ++ ["class", "class_declaration", "abstract_class_declaration"]

/-- The node is a function or a class: what is inside does not count for what is around. -/
def isSealed (n : Node) : Bool := n.named && sealedKinds.contains n.kind

mutual

/-- The node and all nodes in it fit, but for what is inside functions and classes. -/
def isShaped (fits : Node → Bool) : Node → Bool
  | .mk kind named field text row column cs =>
    named && sealedKinds.contains kind ||
      fits (.mk kind named field text row column cs) && areShaped fits cs

def areShaped (fits : Node → Bool) : List Node → Bool
  | [] => true
  | c :: cs => isShaped fits c && areShaped fits cs

end

section

variable {fits : Node → Bool}

theorem areShaped_iff {cs : List Node} :
    areShaped fits cs = true ↔ ∀ c ∈ cs, c.isShaped fits = true := by
  induction cs with
  | nil => simp [areShaped]
  | cons c cs ih => simp [areShaped, ih]

theorem isShaped_iff {n : Node} : n.isShaped fits = true ↔
    n.isSealed = true ∨ fits n = true ∧ ∀ c ∈ n.children, c.isShaped fits = true := by
  cases n
  rw [isShaped, Bool.or_eq_true, Bool.and_eq_true (fits _), areShaped_iff]
  rfl

theorem not_isSealed {n : Node} (h : n.kind ∉ sealedKinds) : n.isSealed = false := by
  simp [isSealed, h]

/-- A node of a shape fits, and so do the nodes in it, unless it is a function or a class. -/
theorem fits_of_isShaped {n : Node} (hn : n.isShaped fits = true) (h : n.isSealed = false) :
    fits n = true ∧ ∀ c ∈ n.children, c.isShaped fits = true := by
  rcases isShaped_iff.mp hn with hs | hn
  · rw [h] at hs
    cases hs
  · exact hn

theorem fits_of_kind {n : Node} {kind : String} (hn : n.isShaped fits = true) (h : n.kind = kind)
    (hk : kind ∉ sealedKinds) :
    fits n = true ∧ ∀ c ∈ n.children, c.isShaped fits = true :=
  fits_of_isShaped hn (not_isSealed (h ▸ hk))

end

end DocCheck.Node
