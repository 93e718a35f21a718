import DocCheck.Proofs.Tree.Execution
import DocCheck.Proofs.Tree.Kinds
import DocCheck.Tree.Flow

/-!
# The return analysis covers every execution

Each way in which an execution may end is one of the facts of a flow: running
past the end, leaving by a jump, a return without a value, and the kinds of a
returned value. The flow of a statement has the fact for each of its executions.
That is shown along the execution, for everything that control enters. A
statement with a label is left out: a jump to it may cross a loop or switch,
whose flow says no more that a jump leaves it.

Results:

* `covers_of_runs`: the flow of a statement covers its executions.
* `returns_sound`: what the summary of a function says of all its executions.
-/
namespace DocCheck

/-! ## What a flow covers -/

namespace Flow

/-- The flow has the fact that goes with an execution that ends in this way. A throw and a jump
to a label or to the next round of a loop leave no trace. -/
def Covers (f : Flow) : Outcome → Prop
  | .completes => f.completes = true
  | .breaks none => f.breaks = true
  | .returns none => f.bare = true
  | .returns (some v) => ∀ k, v.valueKinds.has k = true → f.kinds.has k = true
  | _ => True

variable {f g : Flow} {out : Outcome}

/-- A flow with more facts covers more executions. -/
theorem Covers.mono (h : f.Covers out) (hk : ∀ k, f.kinds.has k = true → g.kinds.has k = true)
    (hb : f.bare = true → g.bare = true) (hj : f.breaks = true → g.breaks = true)
    (hc : out = .completes → g.completes = true) : g.Covers out := by
  rcases out with _ | _ | (_ | _) | _ | (_ | v)
  case completes => exact hc rfl
  case breaks.none => exact hj h
  case returns.none => exact hb h
  case returns.some => exact fun k hv => hk k (h k hv)
  all_goals trivial

theorem covers_either_left (h : f.Covers out) : (f.either g).Covers out := by
  refine h.mono ?_ ?_ ?_ ?_
  · simp +contextual [either]
  · simp +contextual [either]
  · simp +contextual [either]
  · rintro rfl
    have hf : f.completes = true := h
    simp [either, hf]

theorem covers_either_right (h : g.Covers out) : (f.either g).Covers out := by
  refine h.mono ?_ ?_ ?_ ?_
  · simp +contextual [either]
  · simp +contextual [either]
  · simp +contextual [either]
  · rintro rfl
    have hg : g.completes = true := h
    simp [either, hg]

theorem covers_andThen_left (h : f.Covers out) (ha : out ≠ .completes) :
    (f.andThen g).Covers out := by
  by_cases hf : f.completes = true
  · rw [andThen, if_pos hf]
    exact h.mono (by simp +contextual) (by simp +contextual) (by simp +contextual)
      fun he => absurd he ha
  · rw [andThen, if_neg hf]
    exact h

theorem covers_andThen_right (hf : f.completes = true) (h : g.Covers out) :
    (f.andThen g).Covers out := by
  rw [andThen, if_pos hf]
  refine h.mono (by simp +contextual) (by simp +contextual) (by simp +contextual) ?_
  rintro rfl
  exact h

theorem covers_looped (h : f.Covers out) : f.looped.Covers out.unbroken := by
  rcases out with _ | _ | (_ | _) | _ | (_ | v)
  case completes => rfl
  case breaks.none => rfl
  all_goals exact h

theorem covers_finalized_left (h : f.Covers out) (hg : g.completes = true) :
    (f.finalized g).Covers out := by
  refine h.mono (by simp +contextual [finalized]) (by simp +contextual [finalized])
    (by simp +contextual [finalized]) ?_
  rintro rfl
  have hf : f.completes = true := h
  simp [finalized, hf, hg]

theorem covers_finalized_right (h : g.Covers out) (ha : out ≠ .completes) :
    (f.finalized g).Covers out :=
  h.mono (by simp +contextual [finalized]) (by simp +contextual [finalized])
    (by simp +contextual [finalized]) fun he => absurd he ha

/-! ## The cases of a switch -/

/-- Cases one after another, from the first one on. -/
def falling (fs : List Flow) : Flow :=
  let all := fs.foldr either stop
  ⟨all.kinds, all.bare, ((fs.getLast?).getD pass).completes, all.breaks⟩

theorem falling_cons_completes {fs : List Flow} (hne : fs ≠ []) :
    (falling (f :: fs)).completes = (falling fs).completes := by
  obtain ⟨g, gs, rfl⟩ := List.exists_cons_of_ne_nil hne
  simp [falling]

theorem covers_falling_left {fs : List Flow} (h : f.Covers out) (ha : out ≠ .completes) :
    (falling (f :: fs)).Covers out :=
  h.mono (by simp +contextual [falling, either]) (by simp +contextual [falling, either])
    (by simp +contextual [falling, either]) fun he => absurd he ha

theorem covers_falling_right {fs : List Flow} (hf : f.completes = true)
    (h : (falling fs).Covers out) : (falling (f :: fs)).Covers out := by
  refine h.mono (by simp +contextual [falling, either]) (by simp +contextual [falling, either])
    (by simp +contextual [falling, either]) ?_
  rintro rfl
  cases fs with
  | nil => simpa [falling] using hf
  | cons g gs => exact (falling_cons_completes (by simp)).trans h

theorem covers_falling_append {fs gs : List Flow} (hne : gs ≠ []) (h : (falling gs).Covers out) :
    (falling (fs ++ gs)).Covers out := by
  induction fs with
  | nil => exact h
  | cons f fs ih =>
    refine ih.mono (by simp +contextual [falling, either]) (by simp +contextual [falling, either])
      (by simp +contextual [falling, either]) ?_
    rintro rfl
    exact (falling_cons_completes (by simp [hne])).trans ih

theorem covers_switched {fs : List Flow} (d : Bool) (h : (falling fs).Covers out) :
    (switched d fs).Covers out.unbroken := by
  rcases out with _ | _ | (_ | _) | _ | (_ | v)
  case completes =>
    have hl : ((fs.getLast?).getD pass).completes = true := h
    simp [Covers, Outcome.unbroken, switched, hl]
  case breaks.none =>
    have hj : (fs.foldr either stop).breaks = true := h
    simp [Covers, Outcome.unbroken, switched, hj]
  all_goals exact h

end Flow

/-! ## Statements without labels -/

namespace Statement

mutual

/-- No statement inside has a label. -/
def isUnlabeled : Statement → Bool
  | .block body => areUnlabeled body
  | .branch consequence alternative => isUnlabeled consequence && isUnlabeled alternative
  | .loop _ body => isUnlabeled body
  | .switch cases => casesUnlabeled cases
  | .attempt body handler finalizer =>
    isUnlabeled body && optionUnlabeled handler && optionUnlabeled finalizer
  | .labeled _ _ => false
  | _ => true

def areUnlabeled : List Statement → Bool
  | [] => true
  | s :: ss => isUnlabeled s && areUnlabeled ss

def casesUnlabeled : List (Bool × List Statement) → Bool
  | [] => true
  | (_, body) :: cases => areUnlabeled body && casesUnlabeled cases

def optionUnlabeled : Option Statement → Bool
  | none => true
  | some s => isUnlabeled s

end

theorem casesUnlabeled_append (cs ds : List (Bool × List Statement)) :
    casesUnlabeled (cs ++ ds) = (casesUnlabeled cs && casesUnlabeled ds) := by
  induction cs with
  | nil => simp [casesUnlabeled]
  | cons c cs ih => simp [casesUnlabeled, ih, Bool.and_assoc]

theorem caseFlows_append (cs ds : List (Bool × List Statement)) :
    caseFlows (cs ++ ds) = caseFlows cs ++ caseFlows ds := by
  induction cs with
  | nil => simp [caseFlows]
  | cons c cs ih => simp [caseFlows, ih]

theorem hasDefault_eq_false {cs : List Node} (h : ∀ c ∈ cs, c.kind ≠ "switch_default") :
    hasDefault (cs.map ofCase) = false := by
  induction cs with
  | nil => rfl
  | cons c cs ih =>
    simp only [List.forall_mem_cons] at h
    simp [hasDefault, ofCase, h.1, ih h.2]

theorem flow_finalized (body : Statement) (handler : Option Statement) (f : Statement) :
    (attempt body handler (some f)).flow = (attempt body handler none).flow.finalized f.flow := by
  cases handler <;> simp [flow]

end Statement

namespace Task

/-- The statement that control enters; a switch from one of its cases on. -/
def statement : Task → Statement
  | one s => .ofOption s
  | all ss => .block (ss.map .ofNode)
  | loop body => .loop false (.ofOption body)
  | round body => .loop true (.ofOption body)
  | cases cs => .switch (cs.map Statement.ofCase)
  | guarded n =>
    .attempt (.ofOption (n.child? "body"))
      ((n.child? "handler").map fun c => .ofOption (c.child? "body")) none

/-- What may happen from there on. -/
def flow : Task → Flow
  | cases cs => .falling (Statement.caseFlows (cs.map Statement.ofCase))
  | t => t.statement.flow

theorem statement_node {n : Node} {s : Statement} (h : Statement.ofNode n = s) :
    (one (some n)).statement = s := h

theorem flow_node {n : Node} {s : Statement} (h : Statement.ofNode n = s) :
    (one (some n)).flow = s.flow := by
  rw [← h]
  rfl

end Task

/-- The flow covers every execution of statements without labels. -/
theorem covers_of_runs {t : Task} {out : Outcome} (h : Runs t out)
    (hl : t.statement.isUnlabeled = true) : t.flow.Covers out := by
  -- on the execution, as a loop enters its own body again
  induction h with
  | absent => rfl
  | other h =>
    rw [Task.flow_node (Statement.ofNode_other h)]
    rfl
  | throws | valueThrows | continueTo | stopThrows => trivial
  | value h hv =>
    rw [Task.flow_node (Statement.ofNode_return h), hv]
    exact fun k hk => hk
  | bare h hv =>
    rw [Task.flow_node (Statement.ofNode_return h), hv]
    rfl
  | @breakTo n h =>
    rw [Task.flow_node (Statement.ofNode_break h)]
    cases Statement.labelOf n.children with
    | none => rfl
    | some l => trivial
  | block h hr ih =>
    rw [Task.statement_node (Statement.ofNode_block h)] at hl
    rw [Task.flow_node (Statement.ofNode_block h)]
    exact ih hl
  | clause h hr ih =>
    rw [Task.statement_node (Statement.ofNode_else h)] at hl
    rw [Task.flow_node (Statement.ofNode_else h)]
    exact ih hl
  | consequence h hr ih =>
    rw [Task.statement_node (Statement.ofNode_if h)] at hl
    rw [Task.flow_node (Statement.ofNode_if h)]
    simp only [Statement.isUnlabeled, Bool.and_eq_true] at hl
    rw [Statement.flow]
    exact Flow.covers_either_left (ih hl.1)
  | alternative h hr ih =>
    rw [Task.statement_node (Statement.ofNode_if h)] at hl
    rw [Task.flow_node (Statement.ofNode_if h)]
    simp only [Statement.isUnlabeled, Bool.and_eq_true] at hl
    rw [Statement.flow]
    exact Flow.covers_either_right (ih hl.2)
  | loop h hr ih =>
    rw [Task.statement_node (Statement.ofNode_loop h)] at hl
    rw [Task.flow_node (Statement.ofNode_loop h)]
    exact ih hl
  | doLoop h hr ih =>
    rw [Task.statement_node (Statement.ofNode_do h)] at hl
    rw [Task.flow_node (Statement.ofNode_do h)]
    exact ih hl
  | skip h hd =>
    rw [Task.flow_node (Statement.ofNode_switch h), Statement.flow,
      Statement.hasDefault_eq_false hd]
    simp [Flow.Covers, Flow.switched]
  | enter h hc hr ih =>
    rw [Task.statement_node (Statement.ofNode_switch h), hc, List.map_append] at hl
    rw [Task.flow_node (Statement.ofNode_switch h), hc, List.map_append]
    simp only [Statement.isUnlabeled, Statement.casesUnlabeled_append, Bool.and_eq_true] at hl
    rw [Statement.flow, Statement.caseFlows_append]
    refine Flow.covers_switched _ (Flow.covers_falling_append ?_ (ih hl.2))
    simp [Statement.caseFlows, Statement.ofCase]
  | unfinalized h hf hr ih =>
    rw [Task.statement_node (Statement.ofNode_try h), hf] at hl
    rw [Task.flow_node (Statement.ofNode_try h), hf]
    exact ih hl
  | @finalized n f out h hf hr hd ihr ihd =>
    rw [Task.statement_node (Statement.ofNode_try h), hf, Option.map_some] at hl
    rw [Task.flow_node (Statement.ofNode_try h), hf, Option.map_some]
    rw [Statement.flow_finalized]
    simp only [Statement.isUnlabeled, Statement.optionUnlabeled, Bool.and_eq_true] at hl
    have hg : (Task.guarded n).statement.isUnlabeled = true := by
      simp [Task.statement, Statement.isUnlabeled, Statement.optionUnlabeled, hl]
    exact Flow.covers_finalized_left (ihr hg) (ihd hl.2)
  | replaced h hf hr hd ha ihr ihd =>
    rw [Task.statement_node (Statement.ofNode_try h), hf, Option.map_some] at hl
    rw [Task.flow_node (Statement.ofNode_try h), hf, Option.map_some]
    rw [Statement.flow_finalized]
    simp only [Statement.isUnlabeled, Statement.optionUnlabeled, Bool.and_eq_true] at hl
    exact Flow.covers_finalized_right (ihd hl.2) ha
  | labeled h | labeledStops h | labeledAgain h =>
    rw [Task.statement_node (Statement.ofNode_labeled h)] at hl
    cases hl
  | done => rfl
  | next h hr ih ihr =>
    simp only [Task.statement, List.map_cons, Statement.isUnlabeled, Statement.areUnlabeled,
      Bool.and_eq_true] at hl
    exact Flow.covers_andThen_right (ih hl.1) (ihr hl.2)
  | leave h ha ih =>
    simp only [Task.statement, List.map_cons, Statement.isUnlabeled, Statement.areUnlabeled,
      Bool.and_eq_true] at hl
    exact Flow.covers_andThen_left (ih hl.1) ha
  | stop => rfl
  | go h ih => exact ih hl
  | again h ha hr ih ihr => exact ihr hl
  | exit h ha ih => exact Flow.covers_looped (ih hl)
  | lastCase => rfl
  | nextCase h hr ih ihr =>
    simp only [Task.statement, List.map_cons, Statement.isUnlabeled, Statement.casesUnlabeled,
      Bool.and_eq_true] at hl
    exact Flow.covers_falling_right (ih hl.1) (ihr hl.2)
  | leaveCase h ha ih =>
    simp only [Task.statement, List.map_cons, Statement.isUnlabeled, Statement.casesUnlabeled,
      Bool.and_eq_true] at hl
    exact Flow.covers_falling_left (ih hl.1) ha
  | @body n out h ha ih =>
    simp only [Task.statement, Statement.isUnlabeled, Bool.and_eq_true] at hl
    have hb := ih hl.1.1
    show (Statement.attempt _ _ none).flow.Covers _
    cases hc : n.child? "handler" with
    | none =>
      rw [Option.map_none, Statement.flow]
      exact hb
    | some c =>
      rw [Option.map_some, Statement.flow]
      exact Flow.covers_either_left hb
  | handler h hc hr ih ihr =>
    simp only [Task.statement, Statement.isUnlabeled, hc, Option.map_some,
      Statement.optionUnlabeled, Bool.and_eq_true] at hl
    show (Statement.attempt _ _ none).flow.Covers _
    rw [hc, Option.map_some, Statement.flow]
    exact Flow.covers_either_right (ihr hl.1.2)

/-! ## The summary of a function -/

namespace Node

theorem summaryOf_kinds (f : Flow) : (summaryOf f).kinds = f.kinds := by
  unfold summaryOf
  split
  · rename_i he
    rw [KindSet.isEmpty_iff] at he
    ext k
    exact (he k).symm
  · rfl

theorem summaryOf_reachability_ne_never {f : Flow} {k : ValueKind} (h : f.kinds.has k = true) :
    (summaryOf f).reachability ≠ .never ∧ (summaryOf f).kinds = f.kinds := by
  have hne : ¬ f.kinds.isEmpty = true := by
    rw [KindSet.isEmpty_iff]
    intro hall
    rw [hall k] at h
    cases h
  rw [summaryOf, if_neg hne]
  constructor
  · show (if (f.bare || f.completes) = true then Reachability.sometimes else .always) ≠ .never
    split <;> decide
  · rfl

theorem summaryOf_reachability_ne_always {f : Flow} (h : f.bare = true ∨ f.completes = true) :
    (summaryOf f).reachability ≠ .always := by
  unfold summaryOf
  split
  · decide
  · rw [if_pos (by simpa using h)]
    show Reachability.sometimes ≠ .always
    decide

theorem returns_eq_summaryOf {n body : Node} (hb : n.child? "body" = some body)
    (hd : n.isDeferred = false)
    (ha : ¬ (n.kind = "arrow_function" ∧ body.kind ≠ "statement_block")) :
    n.returns = summaryOf (Statement.ofNode body).flow := by
  rw [returns, hb]
  simp only
  rw [if_neg (by simp [hd]), if_neg ha]

def functionOf (body : Node) : Node := .mk "function_declaration" true none "" 0 0 [body]

theorem child_functionOf {body : Node} (h : body.field = some "body") :
    (functionOf body).child? "body" = some body := by
  simp [functionOf, child?, children, h]

/-- Of a function that is not deferred and whose body is made of statements without labels, the
summary has the kinds of each value that an execution of the body returns and does not say that no
value is returned; and if an execution returns without a value or runs past the end, it does not
say that a value is always returned. -/
theorem returns_sound {n body : Node} (hb : n.child? "body" = some body)
    (hd : n.isDeferred = false)
    (ha : ¬ (n.kind = "arrow_function" ∧ body.kind ≠ "statement_block"))
    (hl : (Statement.ofNode body).isUnlabeled = true) {out : Outcome}
    (hr : Runs (.one (some body)) out) :
    (∀ v, out = .returns (some v) → n.returns.reachability ≠ .never ∧
      ∀ k, v.valueKinds.has k = true → n.returns.kinds.has k = true) ∧
    (out = .returns none ∨ out = .completes → n.returns.reachability ≠ .always) := by
  have hc : (Statement.ofNode body).flow.Covers out := covers_of_runs hr hl
  rw [returns_eq_summaryOf hb hd ha]
  constructor
  · rintro v rfl
    obtain ⟨k, hk⟩ := v.exists_valueKinds
    obtain ⟨hn, he⟩ := summaryOf_reachability_ne_never (hc k hk)
    refine ⟨hn, fun k' hk' => ?_⟩
    rw [he]
    exact hc k' hk'
  · rintro (rfl | rfl)
    · exact summaryOf_reachability_ne_always (.inl hc)
    · exact summaryOf_reachability_ne_always (.inr hc)

/-- The block `{ return 'a'; }`. -/
def returnBlock : Node :=
  .mk "statement_block" true (some "body") "" 0 0
    [.mk "return_statement" true none "" 0 0 [.mk "string" true none "'a'" 0 0 []]]

/-- The block `{ if (x) break; }`. -/
def breakBlock : Node :=
  .mk "statement_block" true (some "body") "" 0 0
    [.mk "if_statement" true none "" 0 0
      [.mk "break_statement" true (some "consequence") "" 0 0 []]]

/-- A try statement of the two blocks. -/
def retry : Node :=
  .mk "try_statement" true (some "body") "" 0 0
    [returnBlock, .mk "finally_clause" true (some "finalizer") "" 0 0 [breakBlock]]

/-- The function with the body `for (;;) try { return 'a'; } finally { if (x) break; }`. -/
def retrying : Node :=
  .mk "function_declaration" true none "" 0 0
    [.mk "statement_block" true (some "body") "" 0 0
      [.mk "for_statement" true none "" 0 0 [retry]]]

/-- In each round the string may be returned, or the finalizer breaks off instead. -/
theorem returns_sound_retrying :
    retrying.returns.reachability = .sometimes ∧ retrying.returns.kinds.has .string = true := by
  have hbody : Runs (.guarded retry) (.returns (some (.mk "string" true none "'a'" 0 0 []))) :=
    .body (.block rfl (.leave (.value rfl rfl) nofun)) nofun
  have hpass : Runs (.one (some breakBlock)) .completes :=
    .block rfl (.next (.alternative rfl .absent) .done)
  have hbreak : Runs (.one (some breakBlock)) (.breaks none) :=
    .block rfl (.leave (.consequence rfl (.breakTo rfl)) nofun)
  have hreturns : Runs (.one (some retry))
      (.returns (some (.mk "string" true none "'a'" 0 0 []))) :=
    .finalized rfl rfl hbody hpass
  have hbreaks : Runs (.one (some retry)) (.breaks none) := .replaced rfl rfl hbody hbreak nofun
  have hreturn := returns_sound (n := retrying) rfl rfl (by decide) rfl
    (.block rfl (.leave (.loop rfl (.go (.exit hreturns ⟨nofun, nofun⟩))) nofun))
  have hround : Runs (.round (some retry)) .completes := Runs.exit hbreaks ⟨nofun, nofun⟩
  have hend := returns_sound (n := retrying) rfl rfl (by decide) rfl
    (.block rfl (.next (.loop rfl (.go hround)) .done))
  obtain ⟨hn, hk⟩ := hreturn.1 _ rfl
  have ha := hend.2 (.inr rfl)
  refine ⟨?_, hk _ rfl⟩
  cases hr : retrying.returns.reachability with
  | never => exact absurd hr hn
  | always => exact absurd hr ha
  | sometimes => rfl

end Node

end DocCheck
