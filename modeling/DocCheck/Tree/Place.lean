import DocCheck.Tree.Basic

/-!
# Places in a syntax tree

A place is a node with the way that leads to it from the root, so that parents and
siblings can be reached. A walk visits the nodes of a tree in the order of the
source: a node before its parts, the parts from left to right (SPEC_FULL 2, host
adapter).
-/
namespace DocCheck

/-- A node and its ancestors, the nearest first, each with the position of the child that
leads to the node. -/
structure Place where
  node : Node
  above : List (Node × Nat)

namespace Place

def root (n : Node) : Place := ⟨n, []⟩

def parent? (p : Place) : Option Place :=
  match p.above with
  | (n, _) :: above => some ⟨n, above⟩
  | [] => none

def hasParent (p : Place) (kind : String) : Bool := p.parent?.any fun q => q.node.kind == kind

/-- The sibling directly before the node, of any kind. -/
def previous? (p : Place) : Option Node :=
  match p.above with
  | (n, i + 1) :: _ => n.children[i]?
  | _ => none

def children (p : Place) : List Place :=
  p.node.children.zipIdx.map fun (c, i) => ⟨c, (p.node, i) :: p.above⟩

/-- The number of nodes at and below several places. -/
def total (ps : List Place) : Nat := Node.sizes (ps.map Place.node)

theorem map_node_children (p : Place) : p.children.map Place.node = p.node.children := by
  simp [children, Function.comp_def]

theorem total_children (p : Place) (rest : List Place) :
    total (p.children ++ rest) < total (p :: rest) := by
  have h := Node.size_eq p.node
  simp only [total, List.map_append, map_node_children, Node.sizes_append, List.map_cons,
    Node.sizes]
  omega

theorem total_eq_zero {ps : List Place} : total ps = 0 ↔ ps = [] := by
  cases ps with
  | nil => simp [total, Node.sizes]
  | cons p ps =>
    have h := p.node.size_pos
    simp only [total, List.map_cons, Node.sizes, reduceCtorEq, iff_false]
    omega

/-- The places to visit and all below them, in the order of the source. -/
def visit : List Place → List Place
  | [] => []
  | p :: rest => p :: visit (p.children ++ rest)
termination_by ps => total ps
decreasing_by exact total_children p rest

end Place

end DocCheck
