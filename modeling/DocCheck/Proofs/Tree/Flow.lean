import DocCheck.Proofs.Tree.Statement
import DocCheck.Tree.Flow

/-!
# The flow of some nodes

The flow of several statements in a row and that of the cases of a switch, said of
the nodes that the statements are read from.

Results:

* `Node.gets_cons`, `Statement.has_sequence`: control gets to a statement if it may run past those
  before it.
* `Statement.caseFlows_eq`, `Statement.hasDefault_eq`: the cases of a switch.
* `Node.flow_of_sameFlows`: the flow of a statement is made of those of the statements in it.
-/
namespace DocCheck

/-! ## Statements in a row -/

namespace Flow

variable {a b : Flow}

theorem completes_andThen : (a.andThen b).completes = (a.completes && b.completes) := by
  unfold andThen
  split <;> simp_all

theorem has_andThen {k : ValueKind} : (a.andThen b).kinds.has k = true ↔
    a.kinds.has k = true ∨ a.completes = true ∧ b.kinds.has k = true := by
  unfold andThen
  split <;> simp_all

end Flow

namespace Node

/-- Control that enters the first of some statements may get to this one: it may run past all that
stand before it. -/
def Gets (ns : List Node) (s : Node) : Prop :=
  ∃ before after, ns = before ++ s :: after ∧
    (Statement.sequence (before.map Statement.ofNode)).completes = true

theorem Gets.mem {ns : List Node} {s : Node} (h : Gets ns s) : s ∈ ns := by
  obtain ⟨before, after, rfl, -⟩ := h
  simp

theorem gets_cons {n s : Node} {ns : List Node} : Gets (n :: ns) s ↔
    s = n ∨ (Statement.ofNode n).flow.completes = true ∧ Gets ns s := by
  constructor
  · rintro ⟨before, after, he, hc⟩
    cases before with
    | nil => exact .inl (List.cons.inj he).1.symm
    | cons m before =>
      obtain ⟨rfl, rfl⟩ := List.cons.inj he
      rw [List.map_cons, Statement.sequence, Flow.completes_andThen, Bool.and_eq_true] at hc
      exact .inr ⟨hc.1, before, after, rfl, hc.2⟩
  · rintro (rfl | ⟨hn, before, after, rfl, hc⟩)
    · exact ⟨[], ns, rfl, rfl⟩
    · refine ⟨n :: before, after, rfl, ?_⟩
      rw [List.map_cons, Statement.sequence, Flow.completes_andThen, hn, hc]
      rfl

end Node

namespace Statement

/-- Statements in a row return what those return to which control gets. -/
theorem has_sequence {ns : List Node} {k : ValueKind} :
    (sequence (ns.map ofNode)).kinds.has k = true ↔
      ∃ s, Node.Gets ns s ∧ (ofNode s).flow.kinds.has k = true := by
  induction ns with
  | nil =>
    constructor
    · intro hk
      cases hk
    · rintro ⟨s, hs, -⟩
      cases hs.mem
  | cons n ns ih =>
    rw [List.map_cons, sequence, Flow.has_andThen, ih]
    constructor
    · rintro (hk | ⟨hc, s, hs, hk⟩)
      · exact ⟨n, Node.gets_cons.mpr (.inl rfl), hk⟩
      · exact ⟨s, Node.gets_cons.mpr (.inr ⟨hc, hs⟩), hk⟩
    · rintro ⟨s, hs, hk⟩
      rcases Node.gets_cons.mp hs with rfl | ⟨hc, hs⟩
      · exact .inl hk
      · exact .inr ⟨hc, s, hs, hk⟩

/-! ## Cases -/

theorem caseFlows_eq (cs : List Node) :
    caseFlows (cs.map ofCase) = cs.map fun c => sequence (c.caseParts.map ofNode) := by
  induction cs with
  | nil => rfl
  | cons c cs ih => simp [caseFlows, ofCase, ih]

theorem hasDefault_eq (cs : List Node) :
    hasDefault (cs.map ofCase) = cs.any fun c => c.kind == "switch_default" := by
  induction cs with
  | nil => rfl
  | cons c cs ih => simp [hasDefault, ofCase, ih]

end Statement

namespace Node

/-! ## Statements that hold others -/

section

variable {n n' : Node}

theorem flow_ofOption (o : Option Node) : (Statement.ofOption o).flow =
    (o.map fun c => (Statement.ofNode c).flow).getD .pass := by
  cases o <;> rfl

/-- Statements in a row have the flow of what their flows are. -/
theorem sequence_congr {ns ns' : List Node}
    (h : (ns'.map fun c => (Statement.ofNode c).flow) = ns.map fun c => (Statement.ofNode c).flow) :
    Statement.sequence (ns'.map Statement.ofNode) =
      Statement.sequence (ns.map Statement.ofNode) := by
  have key : ∀ ns : List Node, Statement.sequence (ns.map Statement.ofNode) =
      (ns.map fun c => (Statement.ofNode c).flow).foldr Flow.andThen .pass := by
    intro ns
    induction ns with
    | nil => rfl
    | cons n ns ih => rw [List.map_cons, Statement.sequence, ih]; rfl
  rw [key, h, ← key]

/-- The statements whose flow is not made of those of the statements directly in them: a return has
a value, and the cases of a switch and the clauses of a try statement hold statements of their
own. -/
def ownKinds : List String := ["return_statement", "switch_statement", "try_statement"]

/-- Any other statement has the flow of what it holds. -/
theorem flow_of_sameFlows (hk : n'.kind = n.kind) (h : n.kind ∉ ownKinds)
    (hrole : ∀ role, ((n'.child? role).map fun c => (Statement.ofNode c).flow) =
      (n.child? role).map fun c => (Statement.ofNode c).flow)
    (hparts : ((n'.children.filter isPart).map fun c => (Statement.ofNode c).flow) =
      (n.children.filter isPart).map fun c => (Statement.ofNode c).flow) :
    (Statement.ofNode n').flow = (Statement.ofNode n).flow := by
  have hflow (role : String) : (Statement.ofOption (n'.child? role)).flow =
      (Statement.ofOption (n.child? role)).flow := by
    rw [flow_ofOption, hrole, ← flow_ofOption]
  have hloop (h : Statement.isLoop n.kind = true) :
      (Statement.ofNode n').flow = (Statement.ofNode n).flow := by
    rw [Statement.ofNode_loop h, Statement.ofNode_loop (by rwa [hk]), Statement.flow,
      Statement.flow, hflow]
  by_cases hc : n.kind ∈ controlKinds
  · simp only [controlKinds, List.mem_cons, List.not_mem_nil, or_false] at hc
    rcases hc with hn | hn | hn | hn | hn | hn | hn | hn | hn | hn | hn | hn | hn | hn
    · exact absurd (by rw [hn]; decide) h
    · rw [Statement.ofNode_throw hn, Statement.ofNode_throw (hk.trans hn)]
    · rw [Statement.ofNode_break hn, Statement.ofNode_break (hk.trans hn), Statement.flow,
        Statement.flow]
    · rw [Statement.ofNode_continue hn, Statement.ofNode_continue (hk.trans hn), Statement.flow,
        Statement.flow]
    · rw [Statement.ofNode_block hn, Statement.ofNode_block (hk.trans hn), Statement.flow,
        Statement.flow, sequence_congr hparts]
    · have hfirst := congrArg List.head? hparts
      rw [List.head?_map, List.head?_map, List.head?_filter, List.head?_filter] at hfirst
      rw [Statement.ofNode_else hn, Statement.ofNode_else (hk.trans hn), flow_ofOption, hfirst,
        ← flow_ofOption]
    · rw [Statement.ofNode_if hn, Statement.ofNode_if (hk.trans hn), Statement.flow,
        Statement.flow, hflow, hflow]
    · exact hloop (by rw [hn]; rfl)
    · exact hloop (by rw [hn]; rfl)
    · exact hloop (by rw [hn]; rfl)
    · rw [Statement.ofNode_do hn, Statement.ofNode_do (hk.trans hn), Statement.flow,
        Statement.flow, hflow]
    · exact absurd (by rw [hn]; decide) h
    · exact absurd (by rw [hn]; decide) h
    · rw [Statement.ofNode_labeled hn, Statement.ofNode_labeled (hk.trans hn), Statement.flow,
        Statement.flow, hflow]
  · rw [Statement.ofNode_other hc, Statement.ofNode_other (by rwa [hk])]

end

end Node

end DocCheck
