import DocCheck.Proofs.Tree.Soundness

/-!
# Jumps out of statements with labels

Of the jumps that leave a statement its flow has one fact, and a loop, a switch
and a label each take it for their own. So a jump that has to cross one of them
is forgotten, and what stands behind the statement that it leaves may be taken
for unreachable. Labels on loops do no harm, since a loop is always taken to end.
As long as every jump finds its way, the analysis covers the executions of
statements with labels too.

Results:

* `tracked_of_runs`: without lost jumps the flow of a statement covers its executions.
* `jumps_found`: which breaks are taken to make control run past a label or a switch.
* `jumps_lost`: breaks that are forgotten, and what the summary then says.
-/
namespace DocCheck

/-! ## The jumps that leave a statement -/

/-- A jump that may leave a statement. -/
structure Exit where
  /-- The label that it names; a break without one leaves the nearest loop or switch. -/
  label : Option String
  /-- It has crossed a loop, a switch or a label. -/
  hidden : Bool
deriving DecidableEq, Repr

namespace Exit

/-- The jumps that go on outwards from a loop, a switch or a label that ends those to `label`. -/
def crossing (label : Option String) (es : List Exit) : List Exit :=
  (es.filter fun e => e.label ≠ label).map fun e => { e with hidden := true }

theorem mem_crossing {label l : Option String} {hidden : Bool} {es : List Exit}
    (h : ⟨l, hidden⟩ ∈ es) (hne : l ≠ label) : ⟨l, true⟩ ∈ crossing label es :=
  List.mem_map.mpr ⟨⟨l, hidden⟩, List.mem_filter.mpr ⟨h, by simpa using hne⟩, rfl⟩

end Exit

namespace Statement

mutual

/-- The jumps that may leave the statement, other than to the next round of the nearest loop. -/
def exits : Statement → List Exit
  | .breakTo label => [⟨label, false⟩]
  | .continueTo (some label) => [⟨some label, false⟩]
  | .block body => exitsOfList body
  | .branch consequence alternative => exits consequence ++ exits alternative
  | .loop _ body => Exit.crossing none (exits body)
  | .switch cases => Exit.crossing none (exitsOfCases cases)
  | .attempt body handler finalizer =>
    exits body ++ exitsOfOption handler ++ exitsOfOption finalizer
  | .labeled label body => Exit.crossing (some label) (exits body)
  | _ => []

def exitsOfList : List Statement → List Exit
  | [] => []
  | s :: ss => exits s ++ exitsOfList ss

def exitsOfCases : List (Bool × List Statement) → List Exit
  | [] => []
  | (_, body) :: cases => exitsOfList body ++ exitsOfCases cases

def exitsOfOption : Option Statement → List Exit
  | none => []
  | some s => exits s

end

/-- A jump to a label in front of the statement is not forgotten: the statement is a loop, or none
of the jumps to the label crosses a loop, a switch or a label inside it. -/
def finds (label : String) : Statement → Bool
  | .loop _ _ => true
  | .switch cases => !(exitsOfCases cases).contains ⟨some label, true⟩
  | .labeled _ body => finds label body
  | s => !(exits s).contains ⟨some label, true⟩

mutual

/-- No jump inside the statement is forgotten on its way to the label or switch that it leaves. -/
def keepsJumps : Statement → Bool
  | .block body => listKeepsJumps body
  | .branch consequence alternative => keepsJumps consequence && keepsJumps alternative
  | .loop _ body => keepsJumps body
  | .switch cases => casesKeepJumps cases && !(exitsOfCases cases).contains ⟨none, true⟩
  | .attempt body handler finalizer =>
    keepsJumps body && optionKeepsJumps handler && optionKeepsJumps finalizer
  | .labeled label body => keepsJumps body && finds label body
  | _ => true

def listKeepsJumps : List Statement → Bool
  | [] => true
  | s :: ss => keepsJumps s && listKeepsJumps ss

def casesKeepJumps : List (Bool × List Statement) → Bool
  | [] => true
  | (_, body) :: cases => listKeepsJumps body && casesKeepJumps cases

def optionKeepsJumps : Option Statement → Bool
  | none => true
  | some s => keepsJumps s

end

theorem exits_branch (c a : Statement) : (branch c a).exits = c.exits ++ a.exits := rfl

theorem exits_block_cons (s : Statement) (ss : List Statement) :
    (block (s :: ss)).exits = s.exits ++ (block ss).exits := rfl

theorem exits_attempt (body : Statement) (handler finalizer : Option Statement) :
    (attempt body handler finalizer).exits =
      body.exits ++ exitsOfOption handler ++ exitsOfOption finalizer := rfl

theorem exitsOfOption_none : exitsOfOption none = [] := rfl

theorem exitsOfOption_some (s : Statement) : exitsOfOption (some s) = s.exits := rfl

theorem exitsOfCases_cons (d : Bool) (body : List Statement) (cs : List (Bool × List Statement)) :
    exitsOfCases ((d, body) :: cs) = (block body).exits ++ exitsOfCases cs := rfl

theorem exitsOfCases_append (cs ds : List (Bool × List Statement)) :
    exitsOfCases (cs ++ ds) = exitsOfCases cs ++ exitsOfCases ds := by
  induction cs with
  | nil => rfl
  | cons c cs ih =>
    rw [List.cons_append, exitsOfCases_cons, exitsOfCases_cons, ih, List.append_assoc]

theorem casesKeepJumps_append (cs ds : List (Bool × List Statement)) :
    casesKeepJumps (cs ++ ds) = (casesKeepJumps cs && casesKeepJumps ds) := by
  induction cs with
  | nil => rfl
  | cons c cs ih =>
    have hc : ∀ es, casesKeepJumps (c :: es) = (listKeepsJumps c.2 && casesKeepJumps es) :=
      fun _ => rfl
    rw [List.cons_append, hc, hc, ih, Bool.and_assoc]

end Statement

/-! ## What a flow tells of an execution -/

namespace Outcome

/-- The label that the execution jumps to, if it ends with a jump other than to the next round of
the nearest loop. -/
def target? : Outcome → Option (Option String)
  | breaks label => some label
  | continues (some label) => some (some label)
  | _ => none

end Outcome

/-- The flow has the fact that goes with the end of the execution. A jump is one of those that may
leave, and unless it is hidden the flow tells that some jump leaves. -/
structure Flow.Tracks (f : Flow) (es : List Exit) (out : Outcome) : Prop where
  covers : out.target? = none → f.Covers out
  jumps : ∀ label, out.target? = some label →
    ⟨label, true⟩ ∈ es ∨ ⟨label, false⟩ ∈ es ∧ f.breaks = true

namespace Flow.Tracks

variable {f g : Flow} {es es' : List Exit} {out : Outcome}

theorem of_covers (h : f.Covers out) (ht : out.target? = none) : f.Tracks es out :=
  ⟨fun _ => h, fun _ he => by rw [ht] at he; cases he⟩

theorem exists_mem (h : f.Tracks es out) {label : Option String} (ht : out.target? = some label) :
    ∃ hidden, ⟨label, hidden⟩ ∈ es :=
  (h.jumps label ht).elim (fun hm => ⟨true, hm⟩) fun hm => ⟨false, hm.1⟩

/-- What is known of a flow is known of another that covers as much. It need not cover that control
runs past the end, if the execution does not. -/
theorem mono (h : f.Tracks es out)
    (hc : ∀ o, (o = .completes → out = .completes) → f.Covers o → g.Covers o)
    (he : ∀ e ∈ es, e ∈ es') : g.Tracks es' out :=
  ⟨fun ht => hc out id (h.covers ht), fun label ht =>
    (h.jumps label ht).imp (he _) fun ⟨hm, hb⟩ => ⟨he _ hm, hc (.breaks none) nofun hb⟩⟩

/-- A jump of which none to its label is hidden is told by the flow. -/
theorem breaks_of_not_hidden (h : f.Tracks es out) {label : Option String}
    (ht : out.target? = some label) (hn : es.contains ⟨label, true⟩ = false) :
    f.breaks = true := by
  rcases h.jumps label ht with hm | ⟨-, hb⟩
  · simp [hm] at hn
  · exact hb

/-- A jump that goes on outwards from a loop, a switch or a label is hidden there. -/
theorem crossing (h : f.Tracks es out) {label l : Option String} (hne : l ≠ label)
    (ht : out.target? = some l) {out' : Outcome} (ht' : out'.target? = some l) :
    g.Tracks (Exit.crossing label es) out' := by
  obtain ⟨hidden, hm⟩ := h.exists_mem ht
  refine ⟨fun he => ?_, fun l' he => ?_⟩
  · rw [ht'] at he
    cases he
  · rw [ht'] at he
    cases he
    exact .inl (Exit.mem_crossing hm hne)

theorem looped (h : f.Tracks es out) : f.looped.Tracks (Exit.crossing none es) out.unbroken := by
  rcases out with _ | _ | (_ | l) | (_ | l) | v
  case breaks.some => exact h.crossing (by simp) rfl rfl
  case continues.some => exact h.crossing (by simp) rfl rfl
  case returns => exact .of_covers (Flow.covers_looped (h.covers rfl)) rfl
  all_goals exact .of_covers (by first | rfl | trivial) rfl

/-- A switch ends with a break of its own that is not hidden. -/
theorem switched {fs : List Flow} (d : Bool) (h : (falling fs).Tracks es out)
    (hn : es.contains ⟨none, true⟩ = false) :
    (Flow.switched d fs).Tracks (Exit.crossing none es) out.unbroken := by
  rcases out with _ | _ | (_ | l) | (_ | l) | v
  case breaks.none =>
    have hb : (falling fs).Covers (.breaks none) := h.breaks_of_not_hidden rfl hn
    exact .of_covers (Flow.covers_switched d hb) rfl
  case breaks.some => exact h.crossing (by simp) rfl rfl
  case continues.some => exact h.crossing (by simp) rfl rfl
  all_goals exact .of_covers (Flow.covers_switched d (h.covers rfl)) rfl

/-- A label ends the jumps to it, if the flow tells of them. -/
theorem labeled {label : String} (h : f.Tracks es out)
    (hf : out.target? = some (some label) → f.completes = true ∨ f.breaks = true)
    (ha : out ≠ .continues (some label)) :
    f.labeled.Tracks (Exit.crossing (some label) es) (out.unlabeled label) := by
  rcases out with _ | _ | (_ | l) | (_ | l) | v
  case completes =>
    have hc : f.completes = true := h.covers rfl
    exact .of_covers (by simp [Flow.Covers, Flow.labeled, Outcome.unlabeled, hc]) rfl
  case breaks.none => exact h.crossing (by simp) rfl rfl
  case breaks.some =>
    by_cases hl : l = label
    · subst hl
      have hc : f.labeled.completes = true := by simpa [Flow.labeled] using hf rfl
      rw [Outcome.unlabeled, if_pos rfl]
      exact .of_covers hc rfl
    · rw [Outcome.unlabeled, if_neg hl]
      exact h.crossing (by simpa using hl) rfl rfl
  case continues.some =>
    have hl : l ≠ label := by rintro rfl; exact ha rfl
    exact h.crossing (by simpa using hl) rfl rfl
  case returns => exact .of_covers (by cases v <;> exact h.covers rfl) rfl
  all_goals exact .of_covers trivial rfl

end Flow.Tracks

/-! ## Executions of statements whose jumps are kept -/

theorem Outcome.target_of_unlabeled {label : String} {out : Outcome} {l : Option String}
    (h : (out.unlabeled label).target? = some l) : out.target? = some l := by
  unfold unlabeled at h
  split at h
  · split at h
    · cases h
    · exact h
  · exact h

theorem Outcome.target_of_unbroken {out : Outcome} {label : Option String}
    (h : out.unbroken.target? = some label) : out.target? = some label := by
  unfold unbroken at h
  split at h
  · cases h
  · exact h

/-- The flow of the statement covers an execution, and it tells of a jump to a label in front of
the statement, if such jumps are found. -/
structure Statement.Tracks (s : Statement) (out : Outcome) : Prop where
  flow : s.flow.Tracks s.exits out
  found : ∀ label, out.target? = some (some label) → s.finds label = true →
    s.flow.completes = true ∨ s.flow.breaks = true

namespace Statement.Tracks

variable {s : Statement} {out : Outcome}

theorem of_covers (h : s.flow.Covers out) (ht : out.target? = none) : s.Tracks out :=
  ⟨.of_covers h ht, fun _ he _ => by rw [ht] at he; cases he⟩

/-- Inside anything but a loop, a switch or a label a jump to the label in front of it goes
straight to it. -/
theorem of_flow (h : s.flow.Tracks s.exits out)
    (hf : ∀ label, s.finds label = !s.exits.contains ⟨some label, true⟩) : s.Tracks out :=
  ⟨h, fun label ht hl => by
    rw [hf, Bool.not_eq_true'] at hl
    exact .inr (h.breaks_of_not_hidden ht hl)⟩

theorem of_completes (h : s.flow.Tracks s.exits out) (hc : s.flow.completes = true) :
    s.Tracks out :=
  ⟨h, fun _ _ _ => .inl hc⟩

theorem labeled {label : String} (h : s.Tracks out) (hf : s.finds label = true)
    (ha : out ≠ .continues (some label)) :
    (Statement.labeled label s).Tracks (out.unlabeled label) := by
  refine ⟨h.flow.labeled (fun ht => h.found label ht hf) ha, fun l ht hl => .inl ?_⟩
  have hb := h.found l (Outcome.target_of_unlabeled ht) hl
  simpa [Statement.flow, Flow.labeled] using hb

/-- A switch that is entered at a case. -/
theorem switch {before cases : List (Bool × List Statement)} (hne : cases ≠ [])
    (h : (Flow.falling (caseFlows cases)).Tracks (exitsOfCases cases) out)
    (hn : (exitsOfCases (before ++ cases)).contains ⟨none, true⟩ = false) :
    (Statement.switch (before ++ cases)).Tracks out.unbroken := by
  have hall : (Flow.falling (caseFlows (before ++ cases))).Tracks
      (exitsOfCases (before ++ cases)) out := by
    have hflows : caseFlows cases ≠ [] := by
      obtain ⟨⟨_, _⟩, _, rfl⟩ := List.exists_cons_of_ne_nil hne
      simp [caseFlows]
    rw [caseFlows_append, exitsOfCases_append]
    exact h.mono (fun _ _ => Flow.covers_falling_append hflows) (by simp +contextual)
  refine ⟨hall.switched _ hn, fun label ht hl => .inl ?_⟩
  have ht' : out.target? = some (some label) := Outcome.target_of_unbroken ht
  simp only [finds, Bool.not_eq_true'] at hl
  have hb : ((caseFlows (before ++ cases)).foldr Flow.either .stop).breaks = true :=
    hall.breaks_of_not_hidden ht' hl
  simp [Statement.flow, Flow.switched, hb]

variable {body : Statement} {handler : Option Statement}

theorem branch_left (h : s.Tracks out) (a : Statement) : (branch s a).Tracks out :=
  .of_flow (h.flow.mono (fun _ _ => Flow.covers_either_left)
    (by simp +contextual [exits_branch])) fun _ => rfl

theorem branch_right (h : s.Tracks out) (c : Statement) : (branch c s).Tracks out :=
  .of_flow (h.flow.mono (fun _ _ => Flow.covers_either_right)
    (by simp +contextual [exits_branch])) fun _ => rfl

theorem block_next {ss : List Statement} (hc : s.flow.completes = true)
    (h : (block ss).Tracks out) : (block (s :: ss)).Tracks out :=
  .of_flow (h.flow.mono (fun _ _ => Flow.covers_andThen_right hc)
    (by simp +contextual [exits_block_cons])) fun _ => rfl

theorem block_leave (h : s.Tracks out) (ha : out ≠ .completes) (ss : List Statement) :
    (block (s :: ss)).Tracks out :=
  .of_flow (h.flow.mono (fun _ hn hc => Flow.covers_andThen_left hc fun he => ha (hn he))
    (by simp +contextual [exits_block_cons])) fun _ => rfl

theorem attempt_body (h : body.Tracks out) (handler : Option Statement) :
    (attempt body handler none).Tracks out := by
  refine .of_flow (h.flow.mono (fun o _ hc => ?_) (by simp +contextual [exits_attempt]))
    fun _ => rfl
  cases handler with
  | none => exact hc
  | some c => exact Flow.covers_either_left hc

theorem attempt_handler (h : s.Tracks out) (body : Statement) :
    (attempt body (some s) none).Tracks out :=
  .of_flow (h.flow.mono (fun _ _ => Flow.covers_either_right)
    (by simp +contextual [exits_attempt, exitsOfOption_some])) fun _ => rfl

theorem attempt_finalized (h : (attempt body handler none).Tracks out)
    (hc : s.flow.completes = true) : (attempt body handler (some s)).Tracks out := by
  refine .of_flow ?_ fun _ => rfl
  rw [flow_finalized]
  refine h.flow.mono (fun _ _ hf => Flow.covers_finalized_left hf hc) fun e he => ?_
  rw [exits_attempt, exitsOfOption_none, List.append_nil] at he
  exact List.mem_append_left _ he

theorem attempt_replaced (h : s.Tracks out) (ha : out ≠ .completes) (body : Statement)
    (handler : Option Statement) : (attempt body handler (some s)).Tracks out := by
  refine .of_flow ?_ fun _ => rfl
  rw [flow_finalized]
  exact h.flow.mono (fun _ hn hc => Flow.covers_finalized_right hc fun he => ha (hn he))
    (by simp +contextual [exits_attempt, exitsOfOption_some])

end Statement.Tracks

namespace Task

/-- No jump inside what control enters is forgotten. -/
def keepsJumps : Task → Bool
  | cases cs => Statement.casesKeepJumps (cs.map Statement.ofCase)
  | t => t.statement.keepsJumps

/-- What is known of an execution of what control enters. -/
def Tracked : Task → Outcome → Prop
  | cases cs, out =>
    (Flow.falling (Statement.caseFlows (cs.map Statement.ofCase))).Tracks
      (Statement.exitsOfCases (cs.map Statement.ofCase)) out
  | t, out => t.statement.Tracks out

theorem keepsJumps_node {n : Node} {s : Statement} (h : Statement.ofNode n = s) :
    (one (some n)).keepsJumps = s.keepsJumps := by
  rw [← h]
  rfl

theorem tracked_node {n : Node} {s : Statement} {out : Outcome} (h : Statement.ofNode n = s)
    (ht : s.Tracks out) : (one (some n)).Tracked out := by
  rw [← h] at ht
  exact ht

end Task

/-- Without lost jumps what is found out about a statement covers its executions. -/
theorem tracked_of_runs {t : Task} {out : Outcome} (h : Runs t out) (hk : t.keepsJumps = true) :
    t.Tracked out := by
  -- on the execution, as a loop enters its own body again, and so may a label before a loop
  induction h with
  | absent => exact .of_covers rfl rfl
  | other h => exact Task.tracked_node (Statement.ofNode_other h) (.of_covers rfl rfl)
  | throws | valueThrows | stopThrows => exact Statement.Tracks.of_covers trivial rfl
  | @value n v h hv =>
    refine Task.tracked_node (s := .value v.valueKinds) ?_ (.of_covers (fun k hk => hk) rfl)
    rw [Statement.ofNode_return h, hv]
  | bare h hv =>
    refine Task.tracked_node (s := .bare) ?_ (.of_covers rfl rfl)
    rw [Statement.ofNode_return h, hv]
  | @breakTo n h =>
    refine Task.tracked_node (Statement.ofNode_break h) (.of_flow ⟨nofun, ?_⟩ fun _ => rfl)
    rintro label ⟨rfl⟩
    exact .inr ⟨List.mem_singleton_self _, rfl⟩
  | @continueTo n h =>
    refine Task.tracked_node (Statement.ofNode_continue h) ?_
    cases Statement.labelOf n.children with
    | none => exact .of_covers trivial rfl
    | some l =>
      refine .of_flow ⟨nofun, ?_⟩ fun _ => rfl
      rintro label ⟨rfl⟩
      exact .inr ⟨List.mem_singleton_self _, rfl⟩
  | block h hr ih =>
    rw [Task.keepsJumps_node (Statement.ofNode_block h)] at hk
    exact Task.tracked_node (Statement.ofNode_block h) (ih hk)
  | clause h hr ih =>
    rw [Task.keepsJumps_node (Statement.ofNode_else h)] at hk
    exact Task.tracked_node (Statement.ofNode_else h) (ih hk)
  | consequence h hr ih =>
    rw [Task.keepsJumps_node (Statement.ofNode_if h)] at hk
    simp only [Statement.keepsJumps, Bool.and_eq_true] at hk
    exact Task.tracked_node (Statement.ofNode_if h) (.branch_left (ih hk.1) _)
  | alternative h hr ih =>
    rw [Task.keepsJumps_node (Statement.ofNode_if h)] at hk
    simp only [Statement.keepsJumps, Bool.and_eq_true] at hk
    exact Task.tracked_node (Statement.ofNode_if h) (.branch_right (ih hk.2) _)
  | loop h hr ih =>
    rw [Task.keepsJumps_node (Statement.ofNode_loop h)] at hk
    exact Task.tracked_node (Statement.ofNode_loop h) (ih hk)
  | doLoop h hr ih =>
    rw [Task.keepsJumps_node (Statement.ofNode_do h)] at hk
    exact Task.tracked_node (Statement.ofNode_do h) (ih hk)
  | skip h hd =>
    refine Task.tracked_node (Statement.ofNode_switch h) (.of_covers ?_ rfl)
    rw [Statement.flow, Statement.hasDefault_eq_false hd]
    simp [Flow.Covers, Flow.switched]
  | enter h hc hr ih =>
    have hs := Statement.ofNode_switch h
    rw [hc, List.map_append] at hs
    rw [Task.keepsJumps_node hs] at hk
    simp only [Statement.keepsJumps, Statement.casesKeepJumps_append, Bool.and_eq_true,
      Bool.not_eq_true'] at hk
    exact Task.tracked_node hs (.switch (by simp) (ih hk.1.2) hk.2)
  | unfinalized h hf hr ih =>
    have hs := Statement.ofNode_try h
    rw [hf] at hs
    rw [Task.keepsJumps_node hs] at hk
    exact Task.tracked_node hs (ih hk)
  | finalized h hf hr hd ihr ihd =>
    have hs := Statement.ofNode_try h
    rw [hf, Option.map_some] at hs
    rw [Task.keepsJumps_node hs] at hk
    simp only [Statement.keepsJumps, Statement.optionKeepsJumps, Bool.and_eq_true] at hk
    have hg := ihr (by
      simp [Task.keepsJumps, Task.statement, Statement.keepsJumps, Statement.optionKeepsJumps, hk])
    exact Task.tracked_node hs (.attempt_finalized hg ((ihd hk.2).flow.covers rfl))
  | replaced h hf hr hd ha ihr ihd =>
    have hs := Statement.ofNode_try h
    rw [hf, Option.map_some] at hs
    rw [Task.keepsJumps_node hs] at hk
    simp only [Statement.keepsJumps, Statement.optionKeepsJumps, Bool.and_eq_true] at hk
    exact Task.tracked_node hs (.attempt_replaced (ihd hk.2) ha _ _)
  | labeled h hr ha ih =>
    rw [Task.keepsJumps_node (Statement.ofNode_labeled h)] at hk
    simp only [Statement.keepsJumps, Bool.and_eq_true] at hk
    exact Task.tracked_node (Statement.ofNode_labeled h) (.labeled (ih hk.1) hk.2 ha)
  | labeledStops h hr ih =>
    rw [Task.keepsJumps_node (Statement.ofNode_labeled h)] at hk
    simp only [Statement.keepsJumps, Bool.and_eq_true] at hk
    have hb := (ih hk.1).found _ rfl hk.2
    refine Task.tracked_node (Statement.ofNode_labeled h) (.of_covers ?_ rfl)
    exact (Bool.or_eq_true _ _).mpr hb
  | labeledAgain h hr ha ih iha => exact iha hk
  | done => exact .of_covers rfl rfl
  | next h hr ih ihr =>
    simp only [Task.keepsJumps, Task.statement, List.map_cons, Statement.keepsJumps,
      Statement.listKeepsJumps, Bool.and_eq_true] at hk
    exact Statement.Tracks.block_next ((ih hk.1).flow.covers rfl) (ihr hk.2)
  | leave h ha ih =>
    simp only [Task.keepsJumps, Task.statement, List.map_cons, Statement.keepsJumps,
      Statement.listKeepsJumps, Bool.and_eq_true] at hk
    exact Statement.Tracks.block_leave (ih hk.1) ha _
  | stop => exact .of_covers rfl rfl
  | go h ih => exact .of_completes (ih hk).flow rfl
  | again h ha hr ih ihr => exact .of_completes (ihr hk).flow rfl
  | exit h ha ih => exact .of_completes (ih hk).flow.looped rfl
  | lastCase => exact .of_covers rfl rfl
  | nextCase h hr ih ihr =>
    simp only [Task.keepsJumps, List.map_cons, Statement.ofCase, Statement.casesKeepJumps,
      Bool.and_eq_true] at hk
    have hc := (ih hk.1).flow.covers rfl
    exact (ihr hk.2).mono (fun _ _ => Flow.covers_falling_right hc)
      (by simp +contextual [Statement.ofCase, Statement.exitsOfCases_cons])
  | leaveCase h ha ih =>
    simp only [Task.keepsJumps, List.map_cons, Statement.ofCase, Statement.casesKeepJumps,
      Bool.and_eq_true] at hk
    refine (ih hk.1).flow.mono
      (fun _ hn hc => Flow.covers_falling_left hc fun he => ha (hn he)) fun e he => ?_
    exact List.mem_append_left _ he
  | body h ha ih =>
    simp only [Task.keepsJumps, Task.statement, Statement.keepsJumps, Bool.and_eq_true] at hk
    exact Statement.Tracks.attempt_body (ih hk.1.1) _
  | @handler n c out h hc hr ih ihr =>
    simp only [Task.keepsJumps, Task.statement, Statement.keepsJumps, hc, Option.map_some,
      Statement.optionKeepsJumps, Bool.and_eq_true] at hk
    show (Statement.attempt _ _ none).Tracks out
    rw [hc]
    exact Statement.Tracks.attempt_handler (ihr hk.1.2) _

/-! ## Jumps that are found and jumps that are not -/

namespace Node

/-- In a statement whose jumps are kept a label is run past if some execution of its statement ends
with a break to it, and a switch if some execution of its cases ends with a break; and of a function
with such a body that may return without a value or run past the end, the summary does not say that
a value is always returned. -/
theorem jumps_found (n : Node) (hk : (Statement.ofNode n).keepsJumps = true) :
    (n.kind = "labeled_statement" →
      Runs (.one (n.child? "body")) (.breaks (some (n.childText "label"))) →
      (Statement.ofNode n).flow.completes = true) ∧
    (n.kind = "switch_statement" → ∀ (before : List Node) (c : Node) (after : List Node),
      n.switchCases = before ++ c :: after → Runs (.cases (c :: after)) (.breaks none) →
      (Statement.ofNode n).flow.completes = true) ∧
    (∀ f : Node, f.child? "body" = some n → f.isDeferred = false →
      ¬ (f.kind = "arrow_function" ∧ n.kind ≠ "statement_block") →
      ∀ out, Runs (.one (some n)) out → out = .returns none ∨ out = .completes →
      f.returns.reachability ≠ .always) := by
  have hcovers : ∀ out, Runs (.one (some n)) out → out.target? = none →
      (Statement.ofNode n).flow.Covers out :=
    fun out hr ht => (tracked_of_runs hr hk).flow.covers ht
  refine ⟨fun h hr => ?_, fun h before c after hc hr => ?_, fun f hb hd ha out hr hout => ?_⟩
  · have hend : Runs (.one (some n)) ((Outcome.breaks (some (n.childText "label"))).unlabeled
        (n.childText "label")) := .labeled h hr nofun
    rw [Outcome.unlabeled, if_pos rfl] at hend
    exact hcovers _ hend rfl
  · have hend : Runs (.one (some n)) (Outcome.breaks none).unbroken := .enter h hc hr
    exact hcovers _ hend rfl
  · rw [returns_eq_summaryOf hb hd ha]
    rcases hout with rfl | rfl
    · exact summaryOf_reachability_ne_always (.inl (hcovers _ hr rfl))
    · exact summaryOf_reachability_ne_always (.inr (hcovers _ hr rfl))

/-- The block of the given statements, as the body of the statement around it. -/
def blockOf (ns : List Node) : Node := .mk "statement_block" true (some "body") "" 0 0 ns

/-- The statement `break L;` in a given role. -/
def breakOut (role : Option String) : Node :=
  .mk "break_statement" true role "" 0 0 [.mk "statement_identifier" true (some "label") "L" 0 0 []]

/-- The statement `break;`. -/
def breakOff : Node := .mk "break_statement" true none "" 0 0 []

/-- The statement `return 1;`. -/
def returnOne : Node :=
  .mk "return_statement" true none "" 0 0 [.mk "number" true none "1" 0 0 []]

/-- The statement `L: { ... }` around the given statements. -/
def labelOn (ns : List Node) : Node :=
  .mk "labeled_statement" true none "" 0 0
    [.mk "statement_identifier" true (some "label") "L" 0 0 [], blockOf ns]

/-- The switch `switch (x) { case 1: ... default: return 1; }` with the given statements in its
first case. -/
def switchOn (ns : List Node) : Node :=
  .mk "switch_statement" true none "" 0 0
    [.mk "switch_body" true (some "body") "" 0 0
      [.mk "switch_case" true none "" 0 0 (.mk "number" true (some "value") "1" 0 0 [] :: ns),
        .mk "switch_default" true none "" 0 0 [returnOne]]]

theorem runs_blockOf {ns : List Node} {out : Outcome} (hp : ns.filter isPart = ns)
    (h : Runs (.all ns) out) : Runs (.one (some (blockOf ns))) out := by
  rw [← hp] at h
  exact .block rfl h

theorem runs_labelOn {ns : List Node} (out : Outcome) (hp : ns.filter isPart = ns)
    (h : Runs (.all ns) out) (ha : out ≠ .continues (some "L")) :
    Runs (.one (some (labelOn ns))) (out.unlabeled "L") := by
  have hblock : Runs (.one ((labelOn ns).child? "body")) out := runs_blockOf hp h
  exact .labeled rfl hblock ha

/-- The statement `if (x) break L;`. -/
def breakOutIf : Node := .mk "if_statement" true none "" 0 0 [breakOut (some "consequence")]

/-- The statement `while (x) { break L; }`. -/
def breakOutOfLoop : Node :=
  .mk "while_statement" true none "" 0 0 [blockOf [breakOut none]]

/-- The jumps of `L: { if (x) break L; return 1; }` and of
`switch (x) { case 1: { break; } return 1; default: return 1; }` are found. -/
theorem jumps_found_breakOutIf :
    (Statement.ofNode (labelOn [breakOutIf, returnOne])).flow.completes = true ∧
    (Statement.ofNode (switchOn [blockOf [breakOff], returnOne])).flow.completes = true ∧
    (functionOf (blockOf [labelOn [breakOutIf, returnOne]])).returns.reachability ≠ .always := by
  have hbreak : Runs (.all [breakOutIf, returnOne]) (.breaks (some "L")) :=
    .leave (.consequence rfl (.breakTo rfl)) nofun
  have hend : Runs (.one (some (labelOn [breakOutIf, returnOne]))) .completes :=
    runs_labelOn (.breaks (some "L")) rfl hbreak nofun
  have hcase : Runs (.cases (switchOn [blockOf [breakOff], returnOne]).switchCases)
      (.breaks none) :=
    .leaveCase (.leave (runs_blockOf rfl (.leave (.breakTo rfl) nofun)) nofun) nofun
  exact ⟨(jumps_found (labelOn [breakOutIf, returnOne]) (by decide)).1 rfl
      (runs_blockOf rfl hbreak),
    (jumps_found (switchOn [blockOf [breakOff], returnOne]) (by decide)).2.1 rfl [] _ _ rfl hcase,
    (jumps_found (blockOf [labelOn [breakOutIf, returnOne]]) (by decide)).2.2 _
      (child_functionOf rfl) rfl (by decide) _ (runs_blockOf rfl (.next hend .done)) (.inr rfl)⟩

/-- The jumps of `L: { while (x) { break L; } return 1; }` and of
`switch (x) { case 1: L: { break; } return 1; default: return 1; }` are not: what they leave is not
taken to be run past, and a function with one of these as its body is taken to return a value
always. -/
theorem jumps_lost :
    (¬ ∀ n : Node, n.kind = "labeled_statement" →
      Runs (.one (n.child? "body")) (.breaks (some (n.childText "label"))) →
      (Statement.ofNode n).flow.completes = true) ∧
    (¬ ∀ (n : Node) (before : List Node) (c : Node) (after : List Node),
      n.kind = "switch_statement" → n.switchCases = before ++ c :: after →
      Runs (.cases (c :: after)) (.breaks none) → (Statement.ofNode n).flow.completes = true) ∧
    (¬ ∀ n body : Node, n.child? "body" = some body → n.isDeferred = false →
      ¬ (n.kind = "arrow_function" ∧ body.kind ≠ "statement_block") →
      ∀ out, Runs (.one (some body)) out → out = .returns none ∨ out = .completes →
      n.returns.reachability ≠ .always) := by
  have hloop : Runs (.one (some breakOutOfLoop)) (.breaks (some "L")) := by
    have hblock : Runs (.one (some (blockOf [breakOut none]))) (.breaks (some "L")) :=
      runs_blockOf rfl (.leave (.breakTo rfl) nofun)
    have hround : Runs (.round (some (blockOf [breakOut none]))) (.breaks (some "L")) :=
      Runs.exit hblock ⟨nofun, nofun⟩
    exact .loop rfl (.go hround)
  have hbreak : Runs (.all [breakOutOfLoop, returnOne]) (.breaks (some "L")) := .leave hloop nofun
  have hend : Runs (.one (some (labelOn [breakOutOfLoop, returnOne]))) .completes :=
    runs_labelOn (.breaks (some "L")) rfl hbreak nofun
  have hoff : Runs (.all [breakOff]) (.breaks none) := .leave (.breakTo rfl) nofun
  have hlabel : Runs (.one (some (labelOn [breakOff]))) (.breaks none) :=
    runs_labelOn (.breaks none) rfl hoff nofun
  have hcase : Runs (.cases (switchOn [labelOn [breakOff], returnOne]).switchCases)
      (.breaks none) :=
    .leaveCase (.leave hlabel nofun) nofun
  refine ⟨fun h => ?_, fun h => ?_, fun h => ?_⟩
  · exact absurd (h (labelOn [breakOutOfLoop, returnOne]) rfl
      (runs_blockOf rfl hbreak)) (by decide)
  · exact absurd (h (switchOn [labelOn [breakOff], returnOne]) [] _ _ rfl rfl hcase) (by decide)
  · exact h _ _ (child_functionOf rfl) rfl (by decide) _
      (runs_blockOf rfl (.next hend .done)) (.inr rfl) rfl

end Node

end DocCheck
