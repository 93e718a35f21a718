import DocCheck.Proofs.Tree.Flow
import DocCheck.Proofs.Tree.Soundness

/-!
# The return analysis finds nothing that no execution does

Without labels, try statements and loops that run their body first, every fact of
a flow has an execution that ends in that way: it takes the branch, the round of
a loop or the case in which the fact was found. Of the jumps a flow keeps one
fact only, so a `continue` that leaves a switch would be taken for a break; it
is left out too.

Results:

* `attains_ofNode`: a structured statement has an execution for each fact of its flow.
* `returns_precise`: what the summary of a function says is done by some execution.
-/
namespace DocCheck

/-! ## Structured statements -/

namespace Statement

mutual

/-- The statement is made of returns, throws, jumps without a label, blocks, branches, loops that
ask first, switches and statements that neither return nor jump, and no `continue` leaves a switch.
`inSwitch` tells that the nearest loop or switch around it is a switch. -/
def isStructured (inSwitch : Bool) : Statement → Bool
  | .breakTo label => label.isNone
  | .continueTo label => label.isNone && !inSwitch
  | .block body => areStructured inSwitch body
  | .branch consequence alternative =>
    isStructured inSwitch consequence && isStructured inSwitch alternative
  | .loop runsOnce body => !runsOnce && isStructured false body
  | .switch cases => casesStructured cases
  | .attempt _ _ _ => false
  | .labeled _ _ => false
  | _ => true

def areStructured (inSwitch : Bool) : List Statement → Bool
  | [] => true
  | s :: ss => isStructured inSwitch s && areStructured inSwitch ss

def casesStructured : List (Bool × List Statement) → Bool
  | [] => true
  | (_, body) :: cases => areStructured true body && casesStructured cases

end

mutual

theorem isUnlabeled_of_isStructured : ∀ {b : Bool} {s : Statement}, s.isStructured b = true →
    s.isUnlabeled = true
  | _, .block _, h => areUnlabeled_of_areStructured h
  | _, .branch _ _, h => by
    simp only [isStructured, Bool.and_eq_true] at h
    simp [isUnlabeled, isUnlabeled_of_isStructured h.1, isUnlabeled_of_isStructured h.2]
  | _, .loop _ _, h => by
    simp only [isStructured, Bool.and_eq_true] at h
    rw [isUnlabeled]
    exact isUnlabeled_of_isStructured h.2
  | _, .switch _, h => casesUnlabeled_of_casesStructured h
  | _, .value _, _ | _, .bare, _ | _, .throw, _ | _, .breakTo _, _ | _, .continueTo _, _
  | _, .plain, _ => rfl

theorem areUnlabeled_of_areStructured : ∀ {b : Bool} {ss : List Statement},
    areStructured b ss = true → areUnlabeled ss = true
  | _, [], _ => rfl
  | _, s :: ss, h => by
    simp only [areStructured, Bool.and_eq_true] at h
    simp [areUnlabeled, isUnlabeled_of_isStructured h.1, areUnlabeled_of_areStructured h.2]

theorem casesUnlabeled_of_casesStructured : ∀ {cs : List (Bool × List Statement)},
    casesStructured cs = true → casesUnlabeled cs = true
  | [], _ => rfl
  | (_, _) :: _, h => by
    simp only [casesStructured, Bool.and_eq_true] at h
    simp [casesUnlabeled, areUnlabeled_of_areStructured h.1, casesUnlabeled_of_casesStructured h.2]

end

theorem isStructured_of_mem {b : Bool} {ns : List Node}
    (h : areStructured b (ns.map ofNode) = true) : ∀ n ∈ ns, (ofNode n).isStructured b = true := by
  induction ns with
  | nil => simp
  | cons n ns ih =>
    simp only [List.map_cons, areStructured, Bool.and_eq_true] at h
    exact List.forall_mem_cons.mpr ⟨h.1, ih h.2⟩

theorem areStructured_of_mem {cs : List Node} (h : casesStructured (cs.map ofCase) = true) :
    ∀ c ∈ cs, areStructured true (c.caseParts.map ofNode) = true := by
  induction cs with
  | nil => simp
  | cons c cs ih =>
    simp only [List.map_cons, ofCase, casesStructured, Bool.and_eq_true] at h
    exact List.forall_mem_cons.mpr ⟨h.1, ih h.2⟩

theorem ne_default_of_hasDefault {cs : List Node} (h : hasDefault (cs.map ofCase) = false) :
    ∀ c ∈ cs, c.kind ≠ "switch_default" := by
  induction cs with
  | nil => simp
  | cons c cs ih =>
    simp only [List.map_cons, ofCase, hasDefault, Bool.or_eq_false_iff, beq_eq_false_iff_ne] at h
    exact List.forall_mem_cons.mpr ⟨h.1, ih h.2⟩

end Statement

/-! ## Flows whose facts have executions -/

/-- Every fact of the flow has an execution that ends in that way. The fact about jumps may have
come from a `continue`, unless the nearest loop or switch around is a switch. -/
structure Attains (inSwitch : Bool) (t : Task) (f : Flow) : Prop where
  kinds : ∀ k, f.kinds.has k = true →
    ∃ v, Runs t (.returns (some v)) ∧ v.valueKinds.has k = true
  bare : f.bare = true → Runs t (.returns none)
  completes : f.completes = true → Runs t .completes
  breaks : f.breaks = true → Runs t (.breaks none) ∨ inSwitch = false ∧ Runs t (.continues none)

namespace Attains

variable {b : Bool} {t u : Task} {f g : Flow}

theorem pass (h : Runs t .completes) : Attains b t .pass :=
  ⟨by simp [Flow.pass], nofun, fun _ => h, nofun⟩

theorem stop : Attains b t .stop :=
  ⟨by simp [Flow.stop], nofun, nofun, nofun⟩

/-- The facts are kept by a task that may do all that the other may do but run past the end. -/
theorem leaving (h : Attains b t f) (hu : ∀ out, out ≠ .completes → Runs t out → Runs u out) :
    Attains b u { f with completes := false } := by
  refine ⟨fun k hk => ?_, fun hb => hu _ nofun (h.bare hb), nofun, fun hj => ?_⟩
  · obtain ⟨v, hr, hv⟩ := h.kinds k hk
    exact ⟨v, hu _ nofun hr, hv⟩
  · exact (h.breaks hj).imp (hu _ nofun) fun ⟨hb, hr⟩ => ⟨hb, hu _ nofun hr⟩

theorem lift (h : Attains b t f) (hu : ∀ out, Runs t out → Runs u out) : Attains b u f :=
  have hl := h.leaving (u := u) fun out _ => hu out
  ⟨hl.kinds, hl.bare, fun hc => hu _ (h.completes hc), hl.breaks⟩

theorem either (hf : Attains b t f) (hg : Attains b t g) : Attains b t (f.either g) := by
  refine ⟨fun k hk => ?_, fun hb => ?_, fun hc => ?_, fun hj => ?_⟩
  · exact (Bool.or_eq_true _ _ ▸ hk).elim (hf.kinds k) (hg.kinds k)
  · exact (Bool.or_eq_true _ _ ▸ hb).elim hf.bare hg.bare
  · exact (Bool.or_eq_true _ _ ▸ hc).elim hf.completes hg.completes
  · exact (Bool.or_eq_true _ _ ▸ hj).elim hf.breaks hg.breaks

/-- What is found behind a statement is reached by an execution that runs past it. -/
theorem andThen {s : Node} {ss : List Node} (h : Attains b (.one (some s)) f)
    (hs : Attains b (.all ss) g) : Attains b (.all (s :: ss)) (f.andThen g) := by
  have hleave := h.leaving (u := .all (s :: ss)) fun out ha hr => .leave hr ha
  unfold Flow.andThen
  split
  · rename_i hc
    exact hleave.either (hs.lift fun out hr => .next (h.completes hc) hr)
  · rename_i hc
    rw [Bool.not_eq_true] at hc
    rw [← hc] at hleave
    exact hleave

theorem all {ns : List Node}
    (h : ∀ n ∈ ns, Attains b (.one (some n)) (Statement.ofNode n).flow) :
    Attains b (.all ns) (Statement.sequence (ns.map Statement.ofNode)) := by
  induction ns with
  | nil => exact pass .done
  | cons n ns ih =>
    rw [List.map_cons, Statement.sequence]
    exact (h n (by simp)).andThen (ih fun m hm => h m (by simp [hm]))

/-- A loop runs its body once to return from it, and not at all to end. -/
theorem loop {body : Option Node} (h : Attains false (.one body) f) :
    Attains b (.loop body) f.looped := by
  have hreturn : ∀ v, Runs (.one body) (.returns v) → Runs (.loop body) (.returns v) :=
    fun v hr => .go (Runs.exit hr ⟨nofun, nofun⟩)
  refine ⟨fun k hk => ?_, fun hb => hreturn _ (h.bare hb), fun _ => .stop, nofun⟩
  obtain ⟨v, hr, hv⟩ := h.kinds k hk
  exact ⟨v, hreturn _ hr, hv⟩

end Attains

/-! ## Switches -/

/-- A fact that some flow of several has. -/
theorem Flow.exists_of_foldr {p : Flow → Bool} (hs : p stop = false)
    (he : ∀ f g, p (f.either g) = (p f || p g)) {fs : List Flow}
    (h : p (fs.foldr either stop) = true) : ∃ f ∈ fs, p f = true := by
  induction fs with
  | nil =>
    rw [List.foldr_nil, hs] at h
    cases h
  | cons f fs ih =>
    rw [List.foldr_cons, he, Bool.or_eq_true] at h
    rcases h with h | h
    · exact ⟨f, by simp, h⟩
    · obtain ⟨g, hg, hp⟩ := ih h
      exact ⟨g, by simp [hg], hp⟩

section Switch

variable {n : Node} (hn : n.kind = "switch_statement")
include hn

theorem Runs.switch_of_case {c : Node} {out : Outcome} (hc : c ∈ n.switchCases)
    (hr : Runs (.all c.caseParts) out) (ha : out ≠ .completes) :
    Runs (.one (some n)) out.unbroken := by
  obtain ⟨before, after, he⟩ := List.append_of_mem hc
  exact .enter hn he (.leaveCase hr ha)

theorem Runs.switch_of_last {cs : List Node} {c : Node} (hc : n.switchCases = cs ++ [c])
    (hr : Runs (.all c.caseParts) .completes) : Runs (.one (some n)) .completes := by
  have hcases : Runs (.cases [c]) .completes := .nextCase hr .lastCase
  exact Runs.enter hn hc hcases

/-- Each case may be entered, so the facts of each are those of the switch. -/
theorem Attains.switch {b : Bool}
    (h : ∀ c ∈ n.switchCases,
      Attains true (.all c.caseParts) (Statement.sequence (c.caseParts.map Statement.ofNode))) :
    Attains b (.one (some n)) (Statement.switch (n.switchCases.map Statement.ofCase)).flow := by
  rw [Statement.flow, Statement.caseFlows_eq]
  have hcase : ∀ p : Flow → Bool, p .stop = false →
      (∀ f g, p (f.either g) = (p f || p g)) →
      p ((n.switchCases.map fun c =>
        Statement.sequence (c.caseParts.map Statement.ofNode)).foldr .either .stop) = true →
      ∃ c ∈ n.switchCases, p (Statement.sequence (c.caseParts.map Statement.ofNode)) = true := by
    intro p hs he hp
    obtain ⟨f, hf, hp⟩ := Flow.exists_of_foldr hs he hp
    obtain ⟨c, hc, rfl⟩ := List.mem_map.mp hf
    exact ⟨c, hc, hp⟩
  refine ⟨fun k hk => ?_, fun hb => ?_, fun hc => ?_, by simp [Flow.switched]⟩
  · obtain ⟨c, hc, hk⟩ := hcase (fun f => f.kinds.has k) rfl (fun _ _ => rfl) hk
    obtain ⟨v, hr, hv⟩ := (h c hc).kinds k hk
    exact ⟨v, Runs.switch_of_case hn hc hr (by simp), hv⟩
  · obtain ⟨c, hc, hb⟩ := hcase Flow.bare rfl (fun _ _ => rfl) hb
    exact Runs.switch_of_case hn hc ((h c hc).bare hb) (by simp)
  · simp only [Flow.switched, Bool.or_eq_true, Bool.not_eq_true'] at hc
    rcases hc with (hd | hj) | hl
    · exact .skip hn (Statement.ne_default_of_hasDefault hd)
    · obtain ⟨c, hc, hj⟩ := hcase Flow.breaks rfl (fun _ _ => rfl) hj
      rcases (h c hc).breaks hj with hr | ⟨hf, -⟩
      · exact Runs.switch_of_case hn hc hr (by simp)
      · cases hf
    · rcases List.eq_nil_or_concat n.switchCases with he | ⟨cs, c, he⟩
      · exact .skip hn (by simp [he])
      · rw [List.concat_eq_append] at he
        have hlast : (Statement.sequence (c.caseParts.map Statement.ofNode)).completes = true := by
          simpa [he] using hl
        exact Runs.switch_of_last hn he ((h c (by simp [he])).completes hlast)

end Switch

/-! ## All structured statements -/

namespace Statement

variable {n : Node} {b : Bool}

theorem attains_return (h : n.kind = "return_statement") :
    Attains b (.one (some n)) (ofNode n).flow := by
  rw [ofNode_return h]
  cases hv : n.children.find? Node.isPart with
  | none => exact ⟨by simp [flow], fun _ => .bare h hv, by simp [flow], by simp [flow]⟩
  | some v =>
    exact ⟨fun k hk => ⟨v, .value h hv, hk⟩, by simp [flow], by simp [flow], by simp [flow]⟩

theorem attains_break (h : n.kind = "break_statement") (hs : (ofNode n).isStructured b = true) :
    Attains b (.one (some n)) (ofNode n).flow := by
  rw [ofNode_break h] at hs ⊢
  have hlabel : labelOf n.children = none := Option.isNone_iff_eq_none.mp hs
  have hr : Runs (.one (some n)) (.breaks (labelOf n.children)) := .breakTo h
  rw [hlabel] at hr
  exact ⟨by simp [flow], nofun, nofun, fun _ => .inl hr⟩

theorem attains_continue (h : n.kind = "continue_statement")
    (hs : (ofNode n).isStructured b = true) : Attains b (.one (some n)) (ofNode n).flow := by
  rw [ofNode_continue h] at hs ⊢
  simp only [isStructured, Bool.and_eq_true, Bool.not_eq_true'] at hs
  have hr : Runs (.one (some n)) (.continues (labelOf n.children)) := .continueTo h
  rw [Option.isNone_iff_eq_none.mp hs.1] at hr
  exact ⟨by simp [flow], nofun, nofun, fun _ => .inr ⟨hs.2, hr⟩⟩

theorem attains_loop (h : isLoop n.kind = true)
    (ih : (ofOption (n.child? "body")).isStructured false = true →
      Attains false (.one (n.child? "body")) (ofOption (n.child? "body")).flow)
    (hs : (ofNode n).isStructured b = true) : Attains b (.one (some n)) (ofNode n).flow := by
  rw [ofNode_loop h] at hs ⊢
  have hloop := (ih hs).loop (b := b)
  exact hloop.lift fun out hr => .loop h hr

/-- A structured statement has an execution for each fact of its flow. -/
theorem attains_ofNode (n : Node) (b : Bool) (hs : (ofNode n).isStructured b = true) :
    Attains b (.one (some n)) (ofNode n).flow := by
  -- on the size, as the statements of a switch stand two levels below it
  induction hsize : n.size using Nat.strongRecOn generalizing n b with
  | ind size ih =>
  subst hsize
  have hpart : ∀ ms b, (∀ m ∈ ms, m.size < n.size) → areStructured b (ms.map ofNode) = true →
      Attains b (.all ms) (sequence (ms.map ofNode)) :=
    fun ms b hlt hs => .all fun m hm => ih m.size (hlt m hm) m b (isStructured_of_mem hs m hm) rfl
  have hchild : ∀ o b, (∀ c, o = some c → c.size < n.size) →
      (ofOption o).isStructured b = true → Attains b (.one o) (ofOption o).flow := by
    intro o b hlt hs
    cases o with
    | none => exact .pass .absent
    | some c => exact ih c.size (hlt c rfl) c b hs rfl
  by_cases hk : n.kind ∈ Node.controlKinds
  · simp only [Node.controlKinds, List.mem_cons, List.not_mem_nil, or_false] at hk
    have hbody := hchild (n.child? "body") false fun c => Node.size_lt_of_child
    rcases hk with h | h | h | h | h | h | h | h | h | h | h | h | h | h
    · exact attains_return h
    · rw [ofNode_throw h]
      exact .stop
    · exact attains_break h hs
    · exact attains_continue h hs
    · rw [ofNode_block h] at hs ⊢
      have hlt : ∀ m ∈ n.children.filter Node.isPart, m.size < n.size :=
        fun m hm => Node.size_lt_of_mem_children (List.mem_filter.mp hm).1
      exact (hpart _ b hlt hs).lift fun out hr => .block h hr
    · rw [ofNode_else h] at hs ⊢
      have hlt : ∀ c, n.children.find? Node.isPart = some c → c.size < n.size :=
        fun c hc => Node.size_lt_of_mem_children (List.mem_of_find?_eq_some hc)
      exact (hchild _ b hlt hs).lift fun out hr => .clause h hr
    · rw [ofNode_if h] at hs ⊢
      simp only [isStructured, Bool.and_eq_true] at hs
      have hc := hchild (n.child? "consequence") b (fun c => Node.size_lt_of_child) hs.1
      have ha := hchild (n.child? "alternative") b (fun c => Node.size_lt_of_child) hs.2
      exact (hc.lift fun out hr => .consequence h hr).either
        (ha.lift fun out hr => .alternative h hr)
    · exact attains_loop (by rw [h]; rfl) hbody hs
    · exact attains_loop (by rw [h]; rfl) hbody hs
    · exact attains_loop (by rw [h]; rfl) hbody hs
    · rw [ofNode_do h] at hs
      cases hs
    · rw [ofNode_switch h] at hs ⊢
      exact .switch h fun c hc => hpart _ true (fun d hd => Node.size_lt_of_mem_caseParts hc hd)
        (areStructured_of_mem hs c hc)
    · rw [ofNode_try h] at hs
      cases hs
    · rw [ofNode_labeled h] at hs
      cases hs
  · rw [ofNode_other hk]
    exact .pass (.other hk)

end Statement

/-! ## The summary of a function -/

namespace Node

theorem bare_or_completes_of_sometimes {f : Flow} (h : (summaryOf f).reachability = .sometimes) :
    f.bare = true ∨ f.completes = true := by
  unfold summaryOf at h
  split at h
  · cases h
  · split at h
    · rename_i hb
      simpa using hb
    · cases h

theorem kinds_of_reachability_never {f : Flow} (h : (summaryOf f).reachability = .never)
    (k : ValueKind) : f.kinds.has k = false := by
  rw [← Bool.not_eq_true]
  exact fun hk => (summaryOf_reachability_ne_never hk).1 h

/-- Of a function that is not deferred and whose body is structured, each kind in the summary is a
kind of a value that some execution of the body returns; if a value is returned only sometimes,
some execution returns without a value or runs past the end; and if never, no execution returns a
value. No such execution has met a throw on its way: nothing would have caught it. -/
theorem returns_precise {n body : Node} (hb : n.child? "body" = some body)
    (hd : n.isDeferred = false)
    (ha : ¬ (n.kind = "arrow_function" ∧ body.kind ≠ "statement_block"))
    (hs : (Statement.ofNode body).isStructured false = true) :
    (∀ k, n.returns.kinds.has k = true →
      ∃ v, Runs (.one (some body)) (.returns (some v)) ∧ v.valueKinds.has k = true) ∧
    (n.returns.reachability = .sometimes →
      Runs (.one (some body)) (.returns none) ∨ Runs (.one (some body)) .completes) ∧
    (n.returns.reachability = .never → ∀ v, ¬ Runs (.one (some body)) (.returns (some v))) := by
  have hattains := Statement.attains_ofNode body false hs
  rw [returns_eq_summaryOf hb hd ha, summaryOf_kinds]
  refine ⟨hattains.kinds, fun hr => ?_, fun hr v hv => ?_⟩
  · exact (bare_or_completes_of_sometimes hr).imp hattains.bare hattains.completes
  · have hcovers : (Statement.ofNode body).flow.Covers (.returns (some v)) :=
      covers_of_runs hv (Statement.isUnlabeled_of_isStructured hs)
    obtain ⟨k, hk⟩ := v.exists_valueKinds
    have hf := hcovers k hk
    rw [kinds_of_reachability_never hr k] at hf
    cases hf

/-- The switch `switch (x) { case 1: break; default: return 'a'; return 1; }`. -/
def choice : Node :=
  .mk "switch_statement" true none "" 0 0
    [.mk "switch_body" true (some "body") "" 0 0
      [.mk "switch_case" true none "" 0 0
        [.mk "number" true (some "value") "1" 0 0 [],
          .mk "break_statement" true (some "body") "" 0 0 []],
      .mk "switch_default" true none "" 0 0
        [.mk "return_statement" true (some "body") "" 0 0 [.mk "string" true none "'a'" 0 0 []],
          .mk "return_statement" true (some "body") "" 0 0 [.mk "number" true none "1" 0 0 []]]]]

/-- The block `{ while (x) { switch ... continue; } }` around that switch. -/
def choices : Node :=
  .mk "statement_block" true (some "body") "" 0 0
    [.mk "while_statement" true none "" 0 0
      [.mk "statement_block" true (some "body") "" 0 0
        [choice, .mk "continue_statement" true none "" 0 0 []]]]

/-- The block `{ throw x; return 1; }`. -/
def failure : Node :=
  .mk "statement_block" true (some "body") "" 0 0
    [.mk "throw_statement" true none "" 0 0 [.mk "identifier" true none "x" 0 0 []],
      .mk "return_statement" true none "" 0 0 [.mk "number" true none "1" 0 0 []]]

/-- The string is returned by some execution and some other runs past the end; behind the throw
nothing is returned. -/
theorem returns_precise_choices :
    ((functionOf choices).returns.kinds.has .string = true ∧
      ∃ v, Runs (.one (some choices)) (.returns (some v)) ∧ v.valueKinds.has .string = true) ∧
    ((functionOf choices).returns.reachability = .sometimes ∧
      (Runs (.one (some choices)) (.returns none) ∨ Runs (.one (some choices)) .completes)) ∧
    ((functionOf failure).returns.reachability = .never ∧
      ∀ v, ¬ Runs (.one (some failure)) (.returns (some v))) := by
  have hbody : (functionOf choices).child? "body" = some choices := child_functionOf rfl
  have hbody' : (functionOf failure).child? "body" = some failure := child_functionOf rfl
  have hchoices := returns_precise hbody rfl (by decide) rfl
  have hfailure := returns_precise hbody' rfl (by decide) rfl
  exact ⟨⟨rfl, hchoices.1 .string rfl⟩, ⟨rfl, hchoices.2.1 rfl⟩, ⟨rfl, hfailure.2.2 rfl⟩⟩

end Node

end DocCheck
