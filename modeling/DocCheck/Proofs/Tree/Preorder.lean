import Mathlib.Data.List.Lex
import DocCheck.Proofs.Tree.Kinds
import DocCheck.Tree.Place

/-!
# The places of a tree in preorder

The walk over a tree keeps a list of the places still to visit. What it visits is
the preorder of the tree, which is defined here by recursion over the nodes.
A place has an address, the positions of the parts on the way to it from the root;
preorder is the lexicographic order of the addresses.

Results:

* `Place.visit_eq`: the walk visits what lies below the places of its list.
* `Place.mem_below`: these are all places at or below them.
* `Place.pairwise_below`: each is visited once, and in the order of the addresses.
-/
namespace DocCheck.Place

/-! ## Parts -/

theorem mem_children {p q : Place} :
    q ∈ p.children ↔ ∃ i c, p.node.children[i]? = some c ∧ q = ⟨c, (p.node, i) :: p.above⟩ := by
  simp only [children, List.mem_map, Prod.exists, List.mem_zipIdx_iff_getElem?]
  constructor
  · rintro ⟨c, i, hc, rfl⟩
    exact ⟨i, c, hc, rfl⟩
  · rintro ⟨i, c, hc, rfl⟩
    exact ⟨c, i, hc, rfl⟩

/-- Induction over places, with a hypothesis for each part. -/
@[elab_as_elim] theorem inductionOn {P : Place → Prop} (p : Place)
    (h : ∀ q : Place, (∀ r ∈ q.children, P r) → P q) : P p := by
  obtain ⟨n, above⟩ := p
  induction n using Node.inductionOn generalizing above with
  | h m ih =>
    refine h _ fun r hr => ?_
    obtain ⟨i, c, hc, rfl⟩ := mem_children.mp hr
    exact ih c (List.mem_of_getElem? hc) _

/-! ## Preorder -/

mutual

/-- The places of a tree with some ancestors: its root, then the places of its parts from left
to right. -/
def preorder (above : List (Node × Nat)) : Node → List Place
  | .mk kind named field text row column cs =>
    let n := .mk kind named field text row column cs
    ⟨n, above⟩ :: preorderOf n above 0 cs

/-- The places of the parts of a node from one position on. -/
def preorderOf (parent : Node) (above : List (Node × Nat)) (i : Nat) : List Node → List Place
  | [] => []
  | c :: cs => preorder ((parent, i) :: above) c ++ preorderOf parent above (i + 1) cs

end

/-- A place and all places below it, in preorder. -/
def below (p : Place) : List Place := preorder p.above p.node

theorem preorderOf_eq (parent : Node) (above : List (Node × Nat)) (i : Nat) (cs : List Node) :
    preorderOf parent above i cs =
      ((cs.zipIdx i).map fun c => Place.mk c.1 ((parent, c.2) :: above)).flatMap below := by
  induction cs generalizing i with
  | nil => rfl
  | cons c cs ih => simp [preorderOf, ih, below]

theorem below_eq (p : Place) : p.below = p :: p.children.flatMap below := by
  obtain ⟨⟨kind, named, field, text, row, column, cs⟩, above⟩ := p
  rw [below, preorder, preorderOf_eq]
  rfl

/-- The walk over a list of places visits what lies below them, place by place. -/
theorem visit_eq (ps : List Place) : visit ps = ps.flatMap below := by
  fun_induction visit ps with
  | case1 => rfl
  | case2 p rest ih => rw [ih, List.flatMap_append, List.flatMap_cons, below_eq, List.cons_append]

/-! ## All places below a place -/

/-- A place is another one or stands anywhere below it. -/
inductive AtOrBelow (p : Place) : Place → Prop
  | self : AtOrBelow p p
  | part {q r : Place} (h : AtOrBelow p q) (hr : r ∈ q.children) : AtOrBelow p r

theorem AtOrBelow.trans {p q r : Place} (hq : p.AtOrBelow q) (hr : q.AtOrBelow r) :
    p.AtOrBelow r := by
  induction hr with
  | self => exact hq
  | part _ hr ih => exact ih.part hr

theorem self_mem_below (p : Place) : p ∈ p.below := by
  rw [below_eq]
  exact List.mem_cons_self

theorem mem_below_of_mem_children {p q r : Place} (hq : q ∈ p.below) (hr : r ∈ q.children) :
    r ∈ p.below := by
  induction p using inductionOn with
  | h p ih =>
    rw [below_eq] at hq ⊢
    refine List.mem_cons_of_mem _ (List.mem_flatMap.mpr ?_)
    rcases List.mem_cons.mp hq with rfl | hq
    · exact ⟨r, hr, self_mem_below r⟩
    · obtain ⟨c, hc, hq⟩ := List.mem_flatMap.mp hq
      exact ⟨c, hc, ih c hc hq⟩

/-- The preorder lists the place and all places below it. -/
theorem mem_below {p q : Place} : q ∈ p.below ↔ p.AtOrBelow q := by
  constructor
  · intro h
    induction p using inductionOn with
    | h p ih =>
      rw [below_eq] at h
      rcases List.mem_cons.mp h with rfl | h
      · exact .self
      · obtain ⟨c, hc, h⟩ := List.mem_flatMap.mp h
        exact (AtOrBelow.self.part hc).trans (ih c hc h)
  · intro h
    induction h with
    | self => exact self_mem_below p
    | part _ hr ih => exact mem_below_of_mem_children ih hr

/-! ## Addresses -/

/-- The positions of the parts that lead from the root to the place. -/
def address (p : Place) : List Nat := (p.above.map Prod.snd).reverse

/-- The place comes before another one in the preorder of a tree. -/
def Precedes (p q : Place) : Prop := List.Lex (· < ·) p.address q.address

theorem Precedes.ne {p q : Place} (h : p.Precedes q) : p ≠ q := by
  rintro rfl
  exact List.Lex.to_ne (List.Lex.imp (fun _ _ => Nat.ne_of_lt) _ _ h) rfl

theorem address_part (p : Place) (c : Node) (i : Nat) :
    (Place.mk c ((p.node, i) :: p.above)).address = p.address ++ [i] := by
  simp [address]

theorem exists_address {p q : Place} (h : p.AtOrBelow q) : ∃ a, q.address = p.address ++ a := by
  induction h with
  | self => exact ⟨[], (List.append_nil _).symm⟩
  | part _ hr ih =>
    obtain ⟨a, ha⟩ := ih
    obtain ⟨i, c, -, rfl⟩ := mem_children.mp hr
    exact ⟨a ++ [i], by rw [address_part, ha, List.append_assoc]⟩

/-- A place comes before all that lies below its parts. -/
theorem precedes_of_part {p q r : Place} (hq : q ∈ p.children) (hr : q.AtOrBelow r) :
    p.Precedes r := by
  obtain ⟨i, c, -, rfl⟩ := mem_children.mp hq
  obtain ⟨a, ha⟩ := exists_address hr
  rw [address_part, List.append_assoc] at ha
  have h : List.Lex (· < ·) (p.address ++ []) (p.address ++ ([i] ++ a)) := .append_left _ .nil _
  rwa [List.append_nil, ← ha] at h

/-- What lies below a part comes before what lies below a later part. -/
theorem precedes_of_siblings {p q r : Place} {c d : Node} {i j : Nat} (hij : i < j)
    (hq : (Place.mk c ((p.node, i) :: p.above)).AtOrBelow q)
    (hr : (Place.mk d ((p.node, j) :: p.above)).AtOrBelow r) : q.Precedes r := by
  obtain ⟨a, ha⟩ := exists_address hq
  obtain ⟨b, hb⟩ := exists_address hr
  rw [address_part, List.append_assoc] at ha hb
  rw [Precedes, ha, hb]
  exact .append_left _ (.rel hij) _

theorem pairwise_children (p : Place) :
    p.children.Pairwise fun q r => ∃ c d i j, i < j ∧
      q = ⟨c, (p.node, i) :: p.above⟩ ∧ r = ⟨d, (p.node, j) :: p.above⟩ := by
  rw [List.pairwise_iff_getElem]
  intro i j hi hj hij
  simp only [children, List.getElem_map, List.getElem_zipIdx, Nat.zero_add]
  exact ⟨_, _, i, j, hij, rfl, rfl⟩

/-- The preorder is the order of the addresses, so no place occurs in it twice. -/
theorem pairwise_below (p : Place) : p.below.Pairwise Precedes := by
  induction p using inductionOn with
  | h p ih =>
    rw [below_eq, List.pairwise_cons, List.pairwise_flatMap]
    refine ⟨?_, ih, (pairwise_children p).imp ?_⟩
    · intro r hr
      obtain ⟨q, hq, hr⟩ := List.mem_flatMap.mp hr
      exact precedes_of_part hq (mem_below.mp hr)
    · rintro _ _ ⟨c, d, i, j, hij, rfl, rfl⟩ x hx y hy
      exact precedes_of_siblings hij (mem_below.mp hx) (mem_below.mp hy)

end DocCheck.Place
