import DocCheck.Proofs.Tree.Flow
import DocCheck.Proofs.Tree.Soundness

/-!
# The returns that control gets to

The analysis of returns says that no value is returned when it has found no kinds.
That is no mistake, in whatever tree: control that enters a statement enters some of
the statements inside it, and so on to the returns that it gets to, and the kinds
that are found are those of their values. As each value has a kind, there are no
kinds only where control gets to no return of a value.

Results:

* `has_flow_of_enters`: one step inwards, the kinds of a statement are those of what control enters.
* `has_flow_iff`: on the whole way, they are the kinds of the values that control gets to.
* `never_iff`, `never_iff_not_reaches`: when the summary says that no value is returned.
-/
namespace DocCheck.Node

/-- Control that enters the first statement may go on to enter the second one, inside it. -/
inductive Enters : Node → Node → Prop where
  | block {n s} (h : n.kind = "statement_block") (hs : Gets (n.children.filter isPart) s) :
      Enters n s
  | clause {n s} (h : n.kind = "else_clause") (hs : n.children.find? isPart = some s) : Enters n s
  | branch {n s} (h : n.kind = "if_statement")
      (hs : n.child? "consequence" = some s ∨ n.child? "alternative" = some s) : Enters n s
  | body {n s} (h : Statement.isLoop n.kind = true ∨
        n.kind ∈ ["do_statement", "try_statement", "labeled_statement"])
      (hs : n.child? "body" = some s) : Enters n s
  | case {n c s} (h : n.kind = "switch_statement") (hc : c ∈ n.switchCases)
      (hs : Gets c.caseParts s) : Enters n s
  | attempt {n c s} (h : n.kind = "try_statement")
      (hc : n.child? "handler" = some c ∨ n.child? "finalizer" = some c)
      (hs : c.child? "body" = some s) : Enters n s

/-- Control that enters a statement may get to a return of the value, as far as it may run past all
that stands before it. -/
inductive Reaches (v : Node) : Node → Prop where
  | value {n} (h : n.kind = "return_statement") (hv : n.children.find? isPart = some v) :
      Reaches v n
  | enters {n s} (h : Enters n s) (hr : Reaches v s) : Reaches v n

theorem Enters.size_lt {n s : Node} (h : Enters n s) : s.size < n.size := by
  cases h with
  | block _ hs => exact size_lt_of_mem_children (List.mem_filter.mp hs.mem).1
  | clause _ hs => exact size_lt_of_mem_children (List.mem_of_find?_eq_some hs)
  | branch _ hs => exact hs.elim size_lt_of_child size_lt_of_child
  | body _ hs => exact size_lt_of_child hs
  | case _ hc hs => exact size_lt_of_mem_caseParts hc hs.mem
  | attempt _ hc hs =>
    exact Nat.lt_trans (size_lt_of_child hs) (hc.elim size_lt_of_child size_lt_of_child)

/-! ## One step inwards -/

/-- A statement that may be missing returns what it returns if it is there. -/
theorem has_flow_ofOption {o : Option Node} {k : ValueKind} :
    (Statement.ofOption o).flow.kinds.has k = true ↔
      ∃ s, o = some s ∧ (Statement.ofNode s).flow.kinds.has k = true := by
  cases o <;> simp [Statement.ofOption, Statement.flow, Flow.pass]

theorem has_foldr_either {k : ValueKind} {fs : List Flow} :
    (fs.foldr Flow.either Flow.stop).kinds.has k = true ↔ ∃ f ∈ fs, f.kinds.has k = true := by
  induction fs with
  | nil => simp [Flow.stop]
  | cons f fs ih => simp [Flow.either, ih]

theorem has_flow_attempt {body : Statement} {handler finalizer : Option Statement} {k : ValueKind} :
    (Statement.attempt body handler finalizer).flow.kinds.has k = true ↔
      body.flow.kinds.has k = true ∨
        ∃ s, (handler = some s ∨ finalizer = some s) ∧ s.flow.kinds.has k = true := by
  cases handler <;> cases finalizer <;>
    simp [Statement.flow, Flow.either, Flow.finalized, or_assoc]

/-- A clause of a try statement returns what its body returns. -/
theorem has_flow_clause {n : Node} {role : String} {t : Statement} {k : ValueKind}
    (ht : (n.child? role).map (fun c => Statement.ofOption (c.child? "body")) = some t)
    (hk : t.flow.kinds.has k = true) :
    ∃ c s, n.child? role = some c ∧ c.child? "body" = some s ∧
      (Statement.ofNode s).flow.kinds.has k = true := by
  obtain ⟨c, hc, rfl⟩ := Option.map_eq_some_iff.mp ht
  obtain ⟨s, hs, hk⟩ := has_flow_ofOption.mp hk
  exact ⟨c, s, hc, hs, hk⟩

/-- A statement returns what those return that control enters in it. -/
theorem has_flow_of_enters {n s : Node} {k : ValueKind} (h : Enters n s)
    (hk : (Statement.ofNode s).flow.kinds.has k = true) :
    (Statement.ofNode n).flow.kinds.has k = true := by
  cases h with
  | block h hs =>
    rw [Statement.ofNode_block h, Statement.flow, Statement.has_sequence]
    exact ⟨s, hs, hk⟩
  | clause h hs =>
    rw [Statement.ofNode_else h, has_flow_ofOption]
    exact ⟨s, hs, hk⟩
  | branch h hs =>
    rw [Statement.ofNode_if h, Statement.flow, Flow.either, KindSet.has_union, Bool.or_eq_true,
      has_flow_ofOption, has_flow_ofOption]
    exact hs.imp (fun hs => ⟨s, hs, hk⟩) fun hs => ⟨s, hs, hk⟩
  | body h hs =>
    have hbody : (Statement.ofOption (n.child? "body")).flow.kinds.has k = true :=
      has_flow_ofOption.mpr ⟨s, hs, hk⟩
    simp only [List.mem_cons, List.not_mem_nil, or_false] at h
    rcases h with h | h | h | h
    · rw [Statement.ofNode_loop h]
      exact hbody
    · rw [Statement.ofNode_do h]
      exact hbody
    · rw [Statement.ofNode_try h, has_flow_attempt]
      exact .inl hbody
    · rw [Statement.ofNode_labeled h]
      exact hbody
  | case h hc hs =>
    rw [Statement.ofNode_switch h, Statement.flow, Statement.caseFlows_eq]
    exact has_foldr_either.mpr
      ⟨_, List.mem_map_of_mem hc, Statement.has_sequence.mpr ⟨s, hs, hk⟩⟩
  | attempt h hc hs =>
    rw [Statement.ofNode_try h, has_flow_attempt]
    refine .inr ⟨_, ?_, has_flow_ofOption.mpr ⟨s, hs, hk⟩⟩
    exact hc.imp (fun hc => by rw [hc, Option.map_some]) fun hc => by rw [hc, Option.map_some]

/-- What a statement returns, other than a return, is returned by one that control enters in it. -/
theorem exists_enters {n : Node} {k : ValueKind} (hn : n.kind ≠ "return_statement")
    (hk : (Statement.ofNode n).flow.kinds.has k = true) :
    ∃ s, Enters n s ∧ (Statement.ofNode s).flow.kinds.has k = true := by
  have hbody (h : Statement.isLoop n.kind = true ∨
        n.kind ∈ ["do_statement", "try_statement", "labeled_statement"])
      (hk : (Statement.ofOption (n.child? "body")).flow.kinds.has k = true) :
      ∃ s, Enters n s ∧ (Statement.ofNode s).flow.kinds.has k = true := by
    obtain ⟨s, hs, hk⟩ := has_flow_ofOption.mp hk
    exact ⟨s, .body h hs, hk⟩
  by_cases hc : n.kind ∈ controlKinds
  · simp only [controlKinds, List.mem_cons, List.not_mem_nil, or_false] at hc
    rcases hc with h | h | h | h | h | h | h | h | h | h | h | h | h | h
    · exact absurd h hn
    · rw [Statement.ofNode_throw h] at hk
      cases hk
    · rw [Statement.ofNode_break h] at hk
      cases hk
    · rw [Statement.ofNode_continue h] at hk
      cases hk
    · rw [Statement.ofNode_block h, Statement.flow, Statement.has_sequence] at hk
      obtain ⟨s, hs, hk⟩ := hk
      exact ⟨s, .block h hs, hk⟩
    · rw [Statement.ofNode_else h, has_flow_ofOption] at hk
      obtain ⟨s, hs, hk⟩ := hk
      exact ⟨s, .clause h hs, hk⟩
    · rw [Statement.ofNode_if h, Statement.flow, Flow.either, KindSet.has_union,
        Bool.or_eq_true, has_flow_ofOption, has_flow_ofOption] at hk
      obtain ⟨s, hs, hk⟩ | ⟨s, hs, hk⟩ := hk
      · exact ⟨s, .branch h (.inl hs), hk⟩
      · exact ⟨s, .branch h (.inr hs), hk⟩
    · rw [Statement.ofNode_loop (by rw [h]; rfl)] at hk
      exact hbody (.inl (by rw [h]; rfl)) hk
    · rw [Statement.ofNode_loop (by rw [h]; rfl)] at hk
      exact hbody (.inl (by rw [h]; rfl)) hk
    · rw [Statement.ofNode_loop (by rw [h]; rfl)] at hk
      exact hbody (.inl (by rw [h]; rfl)) hk
    · rw [Statement.ofNode_do h] at hk
      exact hbody (.inr (by simp [h])) hk
    · rw [Statement.ofNode_switch h, Statement.flow, Statement.caseFlows_eq] at hk
      obtain ⟨f, hf, hk⟩ := has_foldr_either.mp hk
      obtain ⟨c, hc, rfl⟩ := List.mem_map.mp hf
      obtain ⟨s, hs, hk⟩ := Statement.has_sequence.mp hk
      exact ⟨s, .case h hc hs, hk⟩
    · rw [Statement.ofNode_try h, has_flow_attempt] at hk
      obtain hk | ⟨t, ht | ht, hk⟩ := hk
      · exact hbody (.inr (by simp [h])) hk
      · obtain ⟨c, s, hc, hs, hk⟩ := has_flow_clause ht hk
        exact ⟨s, .attempt h (.inl hc) hs, hk⟩
      · obtain ⟨c, s, hc, hs, hk⟩ := has_flow_clause ht hk
        exact ⟨s, .attempt h (.inr hc) hs, hk⟩
    · rw [Statement.ofNode_labeled h] at hk
      exact hbody (.inr (by simp [h])) hk
  · rw [Statement.ofNode_other hc] at hk
    cases hk

/-! ## The whole way -/

/-- A return returns its value. -/
theorem has_flow_return {n : Node} {k : ValueKind} (h : n.kind = "return_statement") :
    (Statement.ofNode n).flow.kinds.has k = true ↔
      ∃ v, n.children.find? isPart = some v ∧ v.valueKinds.has k = true := by
  rw [Statement.ofNode_return h]
  cases n.children.find? isPart <;> simp [Statement.flow]

/-- The kinds that a statement returns are those of the values to whose returns control gets. -/
theorem has_flow_iff {n : Node} {k : ValueKind} :
    (Statement.ofNode n).flow.kinds.has k = true ↔
      ∃ v, Reaches v n ∧ v.valueKinds.has k = true := by
  constructor
  · intro hk
    induction hsize : n.size using Nat.strongRecOn generalizing n with
    | ind size ih =>
    subst hsize
    by_cases h : n.kind = "return_statement"
    · obtain ⟨v, hv, hk⟩ := (has_flow_return h).mp hk
      exact ⟨v, .value h hv, hk⟩
    · obtain ⟨s, hs, hk⟩ := exists_enters h hk
      obtain ⟨v, hv, hk⟩ := ih s.size hs.size_lt hk rfl
      exact ⟨v, .enters hs hv, hk⟩
  · rintro ⟨v, hv, hk⟩
    induction hv with
    | value h hv => exact (has_flow_return h).mpr ⟨v, hv, hk⟩
    | enters h _ ih => exact has_flow_of_enters h ih

/-! ## When no value is returned -/

theorem isEmpty_valueKinds (n : Node) : n.valueKinds.isEmpty = false := by
  obtain ⟨k, hk⟩ := n.exists_valueKinds
  rw [← Bool.not_eq_true, KindSet.isEmpty_iff]
  intro hall
  rw [hall k] at hk
  cases hk

theorem summaryOf_never_iff {f : Flow} :
    (summaryOf f).reachability = .never ↔ f.kinds.isEmpty = true := by
  unfold summaryOf
  split
  · rename_i he
    exact ⟨fun _ => he, fun _ => rfl⟩
  · rename_i he
    refine ⟨fun h => ?_, fun h => absurd h he⟩
    split at h <;> cases h

/-- The summary says that no value is returned if and only if it has no kinds. -/
theorem never_iff (n : Node) :
    n.returns.reachability = .never ↔ n.returns.kinds.isEmpty = true := by
  unfold returns
  split
  · exact ⟨fun _ => rfl, fun _ => rfl⟩
  · rename_i body _
    split
    · constructor <;> intro h <;> cases h
    · split
      · simp [isEmpty_valueKinds body]
      · rw [summaryOf_never_iff, summaryOf_kinds]

/-- The summary says that no value is returned if and only if control gets to no return of one. -/
theorem never_iff_not_reaches {n body : Node} (hb : n.child? "body" = some body)
    (hd : n.isDeferred = false)
    (ha : ¬ (n.kind = "arrow_function" ∧ body.kind ≠ "statement_block")) :
    n.returns.reachability = .never ↔ ∀ v, ¬ Reaches v body := by
  rw [returns_eq_summaryOf hb hd ha, summaryOf_never_iff, KindSet.isEmpty_iff]
  constructor
  · intro hall v hv
    obtain ⟨k, hk⟩ := v.exists_valueKinds
    have hflow := has_flow_iff.mpr ⟨v, hv, hk⟩
    rw [hall k] at hflow
    cases hflow
  · intro hnone k
    rw [← Bool.not_eq_true, has_flow_iff]
    rintro ⟨v, hv, -⟩
    exact hnone v hv

end DocCheck.Node
