import Mathlib.Data.List.Chain
import Mathlib.Data.List.Induction
import DocCheck.Proofs.Tree.Preorder
import DocCheck.Tree.Function

/-!
# The functions of a tree are found in one walk

The functions of a tree are found by a loop over a stack: the next place is taken
from its end, kept if it is a function, and its parts are put on the stack, the
last part first. Each turn visits one node, and what was found together with what is
still to be found from the stack stays the same.

Results:

* `Walk.outcome_turn`, `Walk.total_turn`: what one turn keeps, and what it uses up.
* `Walk.found_after`, `Walk.total_after`: the same for a run.
* `functions_walked`: the loop ends, and finds the functions of the tree in preorder.
-/
namespace DocCheck.Place

/-! ## The loop -/

/-- A walk in progress: the places that are still to visit, the next one last, and the
functions found so far. -/
structure Walk where
  stack : List Place
  found : List Place

namespace Walk

def start (n : Node) : Walk := ⟨[root n], []⟩

def turn (w : Walk) : Walk :=
  match w.stack.getLast? with
  | none => w
  | some p => ⟨w.stack.dropLast ++ p.children.reverse, w.found ++ [p].filter isFunction⟩

/-- The walk over a tree after some turns. -/
def after (n : Node) : Nat → Walk
  | 0 => start n
  | k + 1 => (after n k).turn

/-- What will have been found when all that lies below the stack is visited. -/
def outcome (w : Walk) : List Place :=
  w.found ++ (w.stack.reverse.flatMap below).filter isFunction

theorem turn_nil (found : List Place) : turn ⟨[], found⟩ = ⟨[], found⟩ := rfl

theorem turn_concat (rest : List Place) (p : Place) (found : List Place) :
    turn ⟨rest ++ [p], found⟩ =
      ⟨rest ++ p.children.reverse, found ++ [p].filter isFunction⟩ := by
  simp [turn]

theorem outcome_concat (rest : List Place) (p : Place) (found : List Place) :
    outcome ⟨rest ++ [p], found⟩ = found ++ ([p].filter isFunction ++
      ((p.children ++ rest.reverse).flatMap below).filter isFunction) := by
  rw [outcome, List.reverse_append, List.reverse_singleton, List.flatMap_append,
    List.flatMap_singleton, below_eq, List.flatMap_append, ← List.filter_append]
  rfl

/-- A turn does not change the outcome. -/
theorem outcome_turn (w : Walk) : w.turn.outcome = w.outcome := by
  obtain ⟨stack, found⟩ := w
  induction stack using List.reverseRecOn with
  | nil => rw [turn_nil]
  | append_singleton rest p =>
    rw [turn_concat, outcome_concat, outcome, List.reverse_append, List.reverse_reverse,
      List.append_assoc]

theorem total_concat (rest : List Place) (p : Place) :
    total (rest ++ [p]) = total (rest ++ p.children.reverse) + 1 := by
  have h := Node.size_eq p.node
  simp only [total, List.map_append, List.map_reverse, map_node_children, Node.sizes_append,
    Node.sizes_reverse, List.map_cons, List.map_nil, Node.sizes]
  omega

/-- A turn takes one node from what is still to visit. -/
theorem total_turn (w : Walk) : total w.turn.stack = total w.stack - 1 := by
  obtain ⟨stack, found⟩ := w
  induction stack using List.reverseRecOn with
  | nil => rfl
  | append_singleton rest p => rw [turn_concat, total_concat, Nat.add_sub_cancel]

theorem outcome_after (n : Node) (k : Nat) : (after n k).outcome = functions n := by
  induction k with
  | zero =>
    rw [functions, visit_eq]
    rfl
  | succ k ih => rw [after, outcome_turn, ih]

theorem total_after (n : Node) (k : Nat) : total (after n k).stack = n.size - k := by
  induction k with
  | zero => rfl
  | succ k ih => rw [after, total_turn, ih, Nat.sub_sub]

/-- The loop ends after one turn for each node. -/
theorem stack_after (n : Node) (k : Nat) : (after n k).stack = [] ↔ n.size ≤ k := by
  rw [← total_eq_zero, total_after, Nat.sub_eq_zero_iff_le]

/-- When the loop has ended it has found the functions of the tree. -/
theorem found_after {n : Node} {k : Nat} (h : n.size ≤ k) : (after n k).found = functions n := by
  rw [← outcome_after n k, outcome, (stack_after n k).mpr h]
  exact (List.append_nil _).symm

end Walk

/-! ## The functions -/

theorem functions_eq (n : Node) : functions n = (root n).below.filter isFunction := by
  rw [functions, visit_eq, List.flatMap_singleton]

/-- A function is found wherever it stands, a part of a call's arguments apart. -/
theorem mem_functions {n : Node} {p : Place} :
    p ∈ functions n ↔ (root n).AtOrBelow p ∧ p.node.named = true ∧ p.node.kind ∈ functionKinds ∧
      ∀ q, p.parent? = some q → q.node.kind ≠ "arguments" := by
  rw [functions_eq, List.mem_filter, mem_below, isFunction, hasParent]
  simp [Option.any_eq_false, and_assoc]

/-! ## The order of the source -/

/-- The places at which nodes end fit to those at which they start: a node starts before it ends,
its parts lie inside it, and each part begins behind the part before it. -/
structure Nested (n : Node) (stop : Place → Location) : Prop where
  ordered : ∀ p, (root n).AtOrBelow p → p.node.location.atOrBefore (stop p)
  within : ∀ p, (root n).AtOrBelow p → ∀ q ∈ p.children,
    p.node.location.atOrBefore q.node.location ∧ (stop q).atOrBefore (stop p)
  apart : ∀ p, (root n).AtOrBelow p →
    p.children.IsChain fun q r => (stop q).atOrBefore r.node.location

section Order

variable {n : Node} {stop : Place → Location}

/-- What lies below a place lies inside it. -/
theorem Nested.inside (hn : Nested n stop) {p q : Place} (hp : (root n).AtOrBelow p)
    (hq : p.AtOrBelow q) :
    p.node.location.atOrBefore q.node.location ∧ (stop q).atOrBefore (stop p) := by
  induction hq with
  | self => exact ⟨Location.atOrBefore_refl _, Location.atOrBefore_refl _⟩
  | @part q r hq hr ih =>
    have h := hn.within q (hp.trans hq) r hr
    exact ⟨ih.1.trans h.1, h.2.trans ih.2⟩

/-- Parts that begin behind the part before them begin behind all parts before them. -/
theorem pairwise_of_isChain {ps : List Place}
    (ho : ∀ p ∈ ps, p.node.location.atOrBefore (stop p))
    (h : ps.IsChain fun q r => (stop q).atOrBefore r.node.location) :
    ps.Pairwise fun q r => (stop q).atOrBefore r.node.location := by
  induction ps with
  | nil => exact .nil
  | cons q ps ih =>
    have hrest := ih (fun p hp => ho p (List.mem_cons_of_mem _ hp)) h.tail
    refine List.pairwise_cons.mpr ⟨fun r hr => ?_, hrest⟩
    cases ps with
    | nil => cases hr
    | cons s ps =>
      have hs := (List.isChain_cons_cons.mp h).1
      rcases List.mem_cons.mp hr with rfl | hr
      · exact hs
      · exact (hs.trans (ho s (by simp))).trans ((List.pairwise_cons.mp hrest).1 r hr)

/-- In preorder nodes start one behind the other. -/
theorem Nested.pairwise_below (hn : Nested n stop) (p : Place) (hp : (root n).AtOrBelow p) :
    p.below.Pairwise fun q r => q.node.location.atOrBefore r.node.location := by
  induction p using inductionOn with
  | h p ih =>
    have hpart {q : Place} (hq : q ∈ p.children) : (root n).AtOrBelow q := hp.part hq
    rw [below_eq, List.pairwise_cons, List.pairwise_flatMap]
    refine ⟨fun r hr => ?_, fun q hq => ih q hq (hpart hq), ?_⟩
    · obtain ⟨q, hq, hr⟩ := List.mem_flatMap.mp hr
      exact (hn.inside hp ((AtOrBelow.self.part hq).trans (mem_below.mp hr))).1
    · have hparts := pairwise_of_isChain (fun q hq => hn.ordered q (hpart hq)) (hn.apart p hp)
      refine hparts.imp_of_mem fun {q r} hq hr hqr x hx y hy => ?_
      have hx := mem_below.mp hx
      have hxq := (hn.inside (hpart hq) hx).2
      have hry := (hn.inside (hpart hr) (mem_below.mp hy)).1
      have hxx := hn.ordered x ((hpart hq).trans hx)
      -- `x` ends inside `q`, and `y` begins inside `r`, which begins behind `q`
      exact ((hxx.trans hxq).trans hqr).trans hry

end Order

/-! ## The walk -/

/-- The loop over a tree ends after one turn for each node, and has then found the functions that
are no parts of the arguments of a call: all of them, each once and in preorder. Where the nodes
of the tree lie inside and behind each other, this is the order in which the functions start. -/
theorem functions_walked (n : Node) :
    (∀ k, (Walk.after n k).stack = [] ↔ n.size ≤ k) ∧
      (∀ k, n.size ≤ k → (Walk.after n k).found = functions n) ∧
      functions n = (root n).below.filter isFunction ∧
      (∀ p, p ∈ functions n ↔ (root n).AtOrBelow p ∧ p.node.named = true ∧
        p.node.kind ∈ functionKinds ∧ ∀ q, p.parent? = some q → q.node.kind ≠ "arguments") ∧
      (functions n).Nodup ∧ (functions n).Pairwise Precedes ∧
      ∀ stop, Nested n stop →
        (functions n).Pairwise fun p q => p.node.location.atOrBefore q.node.location := by
  have hsub : (functions n).Sublist (root n).below := by
    rw [functions_eq]
    exact List.filter_sublist
  have hpre : (functions n).Pairwise Precedes := (pairwise_below (root n)).sublist hsub
  refine ⟨Walk.stack_after n, fun k => Walk.found_after, functions_eq n, fun p => mem_functions,
    hpre.imp Precedes.ne, hpre, fun stop hn => ?_⟩
  exact (hn.pairwise_below (root n) .self).sublist hsub

/-- The tree of `on(x => { function g() {} }); function h() {}`, without the parts of the two
declarations. -/
def listening : Node :=
  .mk "program" true none "on(x => { function g() {} }); function h() {}" 0 0
    [.mk "expression_statement" true none "on(x => { function g() {} });" 0 0
      [.mk "call_expression" true none "on(x => { function g() {} })" 0 0
        [.mk "identifier" true (some "function") "on" 0 0 [],
          .mk "arguments" true (some "arguments") "(x => { function g() {} })" 0 2
            [.mk "(" false none "(" 0 2 [],
              .mk "arrow_function" true none "x => { function g() {} }" 0 3
                [.mk "identifier" true (some "parameter") "x" 0 3 [],
                  .mk "=>" false none "=>" 0 5 [],
                  .mk "statement_block" true (some "body") "{ function g() {} }" 0 8
                    [.mk "\x7b" false none "\x7b" 0 8 [],
                      .mk "function_declaration" true none "function g() {}" 0 10 [],
                      .mk "\x7d" false none "\x7d" 0 26 []]],
              .mk ")" false none ")" 0 27 []]],
        .mk ";" false none ";" 0 28 []],
      .mk "function_declaration" true none "function h() {}" 0 30 []]

/-- Where a node ends whose text is on one line. -/
def endOnLine (p : Place) : Location := ⟨p.node.row + 1, p.node.column + p.node.text.length⟩

theorem nested_listening : Nested listening endOnLine where
  ordered p hp := by
    have h : ∀ p ∈ (root listening).below, p.node.location.atOrBefore (endOnLine p) := by
      decide +kernel
    exact h p (mem_below.mpr hp)
  within p hp := by
    have h : ∀ p ∈ (root listening).below, ∀ q ∈ p.children,
        p.node.location.atOrBefore q.node.location ∧ (endOnLine q).atOrBefore (endOnLine p) := by
      decide +kernel
    exact h p (mem_below.mpr hp)
  apart p hp := by
    have h : ∀ p ∈ (root listening).below,
        p.children.IsChain fun q r => (endOnLine q).atOrBefore r.node.location := by
      decide +kernel
    exact h p (mem_below.mpr hp)

/-- The function that is handed to the call is passed over, but not the one that it declares. -/
theorem functions_walked_listening :
    (Walk.after listening 16).found = functions listening ∧ Nested listening endOnLine ∧
      (functions listening).map (fun p => (p.node.text, p.address)) =
        [("function g() {}", [0, 0, 1, 1, 2, 1]), ("function h() {}", [1])] ∧
      (functions listening).Pairwise fun p q => p.node.location.atOrBefore q.node.location := by
  obtain ⟨-, hfound, heq, -, -, -, horder⟩ := functions_walked listening
  refine ⟨hfound 16 (by decide), nested_listening, ?_, horder endOnLine nested_listening⟩
  rw [heq]
  decide +kernel

end DocCheck.Place
