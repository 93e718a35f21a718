import DocCheck.Location

/-!
# Syntax trees

A node of a concrete syntax tree has a kind, the role that it plays in its parent
(its field), the source text that it covers, and the place where it starts.
Punctuation and keywords are nodes too; they are not named. Comments are named
nodes that may stand anywhere (SPEC_FULL 2, host adapter).

Results:

* `Node.size_pos`, `Node.size_le_of_mem`: sizes, by which walks over trees end.
-/
namespace DocCheck

/-- A node of a syntax tree. -/
inductive Node where
  | mk (kind : String) (named : Bool) (field : Option String) (text : String)
      (row column : Nat) (children : List Node)
deriving Inhabited

namespace Node

def kind : Node → String
  | mk k _ _ _ _ _ _ => k

/-- The node is neither punctuation nor a keyword. -/
def named : Node → Bool
  | mk _ n _ _ _ _ _ => n

/-- The role in the parent. -/
def field : Node → Option String
  | mk _ _ f _ _ _ _ => f

/-- The source text that the node covers. -/
def text : Node → String
  | mk _ _ _ t _ _ _ => t

/-- The line on which the node starts, counted from zero. -/
def row : Node → Nat
  | mk _ _ _ _ r _ _ => r

/-- The column at which the node starts, in bytes. -/
def column : Node → Nat
  | mk _ _ _ _ _ c _ => c

/-- The parts of the node in the order of the source. -/
def children : Node → List Node
  | mk _ _ _ _ _ _ cs => cs

def location (n : Node) : Location := ⟨n.row + 1, n.column⟩

def isComment (n : Node) : Bool := n.kind == "comment"

/-- The node is a named part of a program: neither punctuation nor a comment. -/
def isPart (n : Node) : Bool := n.named && !n.isComment

def child? (role : String) (n : Node) : Option Node :=
  n.children.find? fun c => c.field == some role

/-- The text of the first child that plays a role; empty if there is none. -/
def childText (role : String) (n : Node) : String :=
  match n.child? role with
  | some c => c.text
  | none => ""

/-! ## Size -/

mutual

def size : Node → Nat
  | mk _ _ _ _ _ _ cs => sizes cs + 1

def sizes : List Node → Nat
  | [] => 0
  | n :: ns => size n + sizes ns

end

theorem size_pos (n : Node) : 0 < n.size := by cases n; simp [size]

theorem size_eq (n : Node) : n.size = sizes n.children + 1 := by cases n; simp [size, children]

theorem sizes_append (ns ms : List Node) : sizes (ns ++ ms) = sizes ns + sizes ms := by
  induction ns with
  | nil => simp [sizes]
  | cons n ns ih => simp [sizes, ih, Nat.add_assoc]

theorem sizes_reverse (ns : List Node) : sizes ns.reverse = sizes ns := by
  induction ns with
  | nil => rfl
  | cons n ns ih => simp [sizes_append, sizes, ih, Nat.add_comm]

theorem size_le_of_mem {n : Node} {ns : List Node} (h : n ∈ ns) : n.size ≤ sizes ns := by
  induction ns with
  | nil => cases h
  | cons m ms ih =>
    rcases List.mem_cons.mp h with rfl | h
    · simp [sizes]
    · have := ih h; simp only [sizes]; omega

end Node

end DocCheck
