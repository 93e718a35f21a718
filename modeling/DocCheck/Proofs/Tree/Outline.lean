import DocCheck.Proofs.Tree.Expression
import DocCheck.Proofs.Tree.Flow
import DocCheck.Proofs.Tree.Shape

/-!
# The outline of a tree

Of the body of a function its summary sees less than there is: no places, of the
texts only those of identifiers and the names of some constructors, and nothing of
what is inside another function or a class. What is left is the outline of the body,
and bodies of one outline have one summary. The walk over statements looks into
whatever stands in the place of a case of a switch or of a clause of a try statement;
in the trees here, as in those of a grammar, that is no function and no class.

Results:

* `valueKinds_outline`: an expression has the kinds of its outline.
* `flow_outline`: a statement has the flow of its outline.
* `returns_of_outline`: functions whose parts have the same outlines have the same summary.
-/
namespace DocCheck.Node

/-- As much of the text of a node as tells something of a value: identifiers, one of which is
`undefined`, and the names of constructors. -/
def tellingText (kind text : String) : String :=
  if kind = "identifier" ∨ text ∈ constructorNames then text else ""

mutual

/-- The tree without places, without the texts that tell nothing, and without what is inside
functions and classes. -/
def outline : Node → Node
  | .mk kind named field text _ _ cs =>
    .mk kind named field (tellingText kind text) 0 0
      (if named && sealedKinds.contains kind then [] else outlines cs)

def outlines : List Node → List Node
  | [] => []
  | c :: cs => outline c :: outlines cs

end

/-! ## What the outline keeps -/

section

variable {n : Node}

theorem outlines_eq (cs : List Node) : outlines cs = cs.map outline := by
  induction cs with
  | nil => rfl
  | cons c cs ih => rw [outlines, ih, List.map_cons]

theorem outline_eq_mk (n : Node) :
    n.outline = .mk n.kind n.named n.field (tellingText n.kind n.text) 0 0
      (if n.isSealed = true then [] else n.children.map outline) := by
  rw [← outlines_eq]
  cases n
  rfl

@[simp] theorem kind_outline : n.outline.kind = n.kind := by
  rw [outline_eq_mk, kind]

@[simp] theorem named_outline : n.outline.named = n.named := by
  rw [outline_eq_mk, named]

@[simp] theorem field_outline : n.outline.field = n.field := by
  rw [outline_eq_mk, field]

@[simp] theorem text_outline : n.outline.text = tellingText n.kind n.text := by
  rw [outline_eq_mk, text]

@[simp] theorem isPart_outline : n.outline.isPart = n.isPart := by
  simp [isPart, isComment]

@[simp] theorem isSealed_outline : n.outline.isSealed = n.isSealed := by
  simp [isSealed]

theorem children_outline (h : n.isSealed = false) :
    n.outline.children = n.children.map outline := by
  rw [outline_eq_mk, children, h]
  rfl

/-! ## Searches among the children -/

theorem isPart_comp_outline : isPart ∘ outline = isPart := funext fun _ => isPart_outline

theorem filter_isPart_outline (cs : List Node) :
    (cs.map outline).filter isPart = (cs.filter isPart).map outline := by
  rw [List.filter_map, isPart_comp_outline]

theorem find_isPart_outline (cs : List Node) :
    (cs.map outline).find? isPart = (cs.find? isPart).map outline := by
  rw [List.find?_map, isPart_comp_outline]

theorem find_role_outline (role : String) (cs : List Node) :
    (cs.map outline).find? (fun c => c.field == some role) =
      (cs.find? fun c => c.field == some role).map outline := by
  simp only [List.find?_map, Function.comp_def, field_outline]

theorem child_outline (h : n.isSealed = false) (role : String) :
    n.outline.child? role = (n.child? role).map outline := by
  rw [child?, children_outline h, find_role_outline, child?]

theorem childKind_outline (h : n.isSealed = false) (role : String) :
    n.outline.childKind role = n.childKind role := by
  rw [childKind, child_outline h, childKind]
  cases n.child? role <;> simp

/-! ## Kinds of values -/

theorem constructedKind_tellingText (kind text : String) :
    constructedKind (tellingText kind text) = constructedKind text := by
  unfold tellingText
  split
  · rfl
  · rename_i h
    rw [constructedKind_of_not_mem fun ht => h (.inr ht)]
    rfl

theorem constructedKind_childText_outline (h : n.isSealed = false) (role : String) :
    constructedKind (n.outline.childText role) = constructedKind (n.childText role) := by
  rw [childText, child_outline h, childText]
  cases n.child? role with
  | none => rfl
  | some c => exact (congrArg constructedKind text_outline).trans (constructedKind_tellingText _ _)

/-- Of functions and classes, the kind of the node is all that tells something of the value. -/
theorem valueKinds_of_isSealed {m : Node} (h : n.isSealed = true) (hk : m.kind = n.kind) :
    m.valueKinds = n.valueKinds := by
  cases hl : literalKind? n.kind with
  | some k => rw [valueKinds_literal hl, valueKinds_literal (hk ▸ hl)]
  | none =>
    have hall : ∀ s ∈ sealedKinds, s ∉ tellingForms := by decide
    have hform : n.kind ∉ tellingForms := by
      rw [isSealed, Bool.and_eq_true, List.contains_iff_mem] at h
      exact hall _ h.2
    rw [valueKinds_other hl hform, valueKinds_other (hk ▸ hl) (hk ▸ hform)]

theorem map_valueKinds_outline {o : Option Node}
    (ih : ∀ c, o = some c → c.outline.valueKinds = c.valueKinds) :
    (o.map outline).map valueKinds = o.map valueKinds := by
  cases o with
  | none => rfl
  | some c => exact congrArg some (ih c rfl)

end

/-- An expression has the kinds of its outline. -/
theorem valueKinds_outline (n : Node) : n.outline.valueKinds = n.valueKinds := by
  induction n using inductionOn with
  | h n ih =>
  by_cases hs : n.isSealed = true
  · exact valueKinds_of_isSealed hs kind_outline
  rw [Bool.not_eq_true] at hs
  have hk : n.outline.kind = n.kind := kind_outline
  have hchild {role : String} {c : Node} (hc : n.child? role = some c) :
      c.outline.valueKinds = c.valueKinds := ih c (mem_of_child hc)
  have hrole (role : String) :
      (n.outline.child? role).map valueKinds = (n.child? role).map valueKinds := by
    rw [child_outline hs]
    exact map_valueKinds_outline fun _ hc => hchild hc
  cases hl : literalKind? n.kind with
  | some k => rw [valueKinds_literal hl, valueKinds_literal (hk ▸ hl)]
  | none =>
    by_cases hform : n.kind ∈ tellingForms
    · simp only [tellingForms, List.mem_cons, List.not_mem_nil, or_false] at hform
      rcases hform with h | h | h | h | h | h
      · have ht : n.outline.text = n.text := by
          rw [text_outline, tellingText]
          exact if_pos (.inl h)
        rw [valueKinds_identifier h, valueKinds_identifier (hk.trans h), ht]
      · rw [valueKinds_parenthesized h, valueKinds_parenthesized (hk.trans h),
          children_outline hs, filter_isPart_outline, List.getLast?_map, map_valueKinds_outline]
        exact fun c hc => ih c (List.mem_filter.mp (List.mem_of_getLast? hc)).1
      · rw [valueKinds_ternary h, valueKinds_ternary (hk.trans h), child_outline hs,
          child_outline hs]
        cases ha : n.child? "consequence" with
        | none => rfl
        | some a =>
          cases hb : n.child? "alternative" with
          | none => rfl
          | some b => simp only [Option.bind_some, Option.map_some, hchild ha, hchild hb]
      · rw [valueKinds_new h, valueKinds_new (hk.trans h), constructedKind_childText_outline hs]
      · rw [valueKinds_unary h, valueKinds_unary (hk.trans h), childKind_outline hs]
      · rw [valueKinds_binary h, valueKinds_binary (hk.trans h), childKind_outline hs, hrole, hrole]
    · rw [valueKinds_other hl hform, valueKinds_other (by rw [hk, hl]) (by rwa [hk])]

/-! ## Shapes of statements -/

/-- No function or class is the body or a case of a switch, or a clause of a try statement. -/
def fitsStatement (n : Node) : Bool :=
  if n.kind = "switch_statement" then
    ((n.child? "body").all fun c => !c.isSealed) && n.switchCases.all fun c => !c.isSealed
  else if n.kind = "try_statement" then
    ((n.child? "handler").all fun c => !c.isSealed) &&
      (n.child? "finalizer").all fun c => !c.isSealed
  else true

theorem switchCases_outline {n : Node} (hs : n.isSealed = false)
    (hb : ∀ body, n.child? "body" = some body → body.isSealed = false) :
    n.outline.switchCases = n.switchCases.map outline := by
  rw [switchCases, child_outline hs, switchCases]
  cases hbody : n.child? "body" with
  | none => rfl
  | some body =>
    simp only [Option.map_some, children_outline (hb body hbody), filter_isPart_outline]

theorem caseParts_outline {c : Node} (hc : c.isSealed = false) :
    c.outline.caseParts = c.caseParts.map outline := by
  rw [caseParts, children_outline hc, List.eraseP_map, filter_isPart_outline, caseParts]
  simp only [Function.comp_def, field_outline]

theorem fitsStatement_outline {n : Node} (hs : n.isSealed = false) :
    fitsStatement n.outline = fitsStatement n := by
  have hcases : (((n.child? "body").all fun c => !c.isSealed) &&
        n.outline.switchCases.all fun c => !c.isSealed) =
      (((n.child? "body").all fun c => !c.isSealed) &&
        n.switchCases.all fun c => !c.isSealed) := by
    by_cases hb : ((n.child? "body").all fun c => !c.isSealed) = true
    · have hbody : ∀ body, n.child? "body" = some body → body.isSealed = false := by
        intro body hc
        rw [hc] at hb
        exact (Bool.not_eq_true' _).mp hb
      simp only [switchCases_outline hs hbody, List.all_map, Function.comp_def, isSealed_outline]
    · rw [Bool.not_eq_true] at hb
      rw [hb, Bool.false_and, Bool.false_and]
  simp only [fitsStatement, kind_outline, child_outline hs, Option.all_map, isSealed_outline,
    hcases]

theorem isShaped_outline (n : Node) :
    n.outline.isShaped fitsStatement = n.isShaped fitsStatement := by
  induction n using inductionOn with
  | h n ih =>
  by_cases hs : n.isSealed = true
  · have hn : n.isShaped fitsStatement = true := isShaped_iff.mpr (.inl hs)
    rw [hn]
    exact isShaped_iff.mpr (.inl (isSealed_outline.trans hs))
  · rw [Bool.not_eq_true] at hs
    rw [Bool.eq_iff_iff, isShaped_iff, isShaped_iff, isSealed_outline, fitsStatement_outline hs,
      children_outline hs, List.forall_mem_map]
    simp only [hs, Bool.false_eq_true, false_or]
    exact and_congr_right fun _ => forall₂_congr fun c hc => by rw [ih c hc]

section

variable {n c : Node} (hn : n.isShaped fitsStatement = true)
include hn

theorem isSealed_of_switch_body (h : n.kind = "switch_statement") (hc : n.child? "body" = some c) :
    c.isSealed = false := by
  have hfits := (fits_of_kind hn h (by decide)).1
  rw [fitsStatement, if_pos h, Bool.and_eq_true, hc] at hfits
  exact (Bool.not_eq_true' _).mp hfits.1

/-- What counts as a case of a switch is no function or class. -/
theorem case_of_switch (h : n.kind = "switch_statement") (hc : c ∈ n.switchCases) :
    c.isSealed = false ∧ c.isShaped fitsStatement = true := by
  obtain ⟨hfits, hbelow⟩ := fits_of_kind hn h (by decide)
  rw [fitsStatement, if_pos h, Bool.and_eq_true, List.all_eq_true] at hfits
  refine ⟨(Bool.not_eq_true' _).mp (hfits.2 c hc), ?_⟩
  unfold switchCases at hc
  split at hc
  · cases hc
  · rename_i body hb
    have hopen := isSealed_of_switch_body hn h hb
    exact (fits_of_isShaped (hbelow body (mem_of_child hb)) hopen).2 c (List.mem_filter.mp hc).1

theorem isSealed_of_clause (h : n.kind = "try_statement")
    (hc : n.child? "handler" = some c ∨ n.child? "finalizer" = some c) : c.isSealed = false := by
  have hfits := (fits_of_kind hn h (by decide)).1
  rw [fitsStatement, if_neg (by rw [h]; decide), if_pos h, Bool.and_eq_true] at hfits
  rcases hc with hc | hc
  · rw [hc] at hfits
    exact (Bool.not_eq_true' _).mp hfits.1
  · rw [hc] at hfits
    exact (Bool.not_eq_true' _).mp hfits.2

end

/-! ## The flow of statements -/

/-- The statement has the flow of its outline. -/
def KeepsFlow (n : Node) : Prop := (Statement.ofNode n.outline).flow = (Statement.ofNode n).flow

section

variable {o : Option Node}

theorem map_flow_outline (ih : ∀ c, o = some c → c.KeepsFlow) :
    ((o.map outline).map fun c => (Statement.ofNode c).flow) =
      o.map fun c => (Statement.ofNode c).flow := by
  cases o with
  | none => rfl
  | some c => exact congrArg some (ih c rfl)

theorem flow_ofOption_outline (ih : ∀ c, o = some c → c.KeepsFlow) :
    (Statement.ofOption (o.map outline)).flow = (Statement.ofOption o).flow := by
  rw [flow_ofOption, map_flow_outline ih, ← flow_ofOption]

theorem map_flows_outline {ns : List Node} (ih : ∀ c ∈ ns, c.KeepsFlow) :
    ((ns.map outline).map fun c => (Statement.ofNode c).flow) =
      ns.map fun c => (Statement.ofNode c).flow := by
  rw [List.map_map]
  exact List.map_congr_left ih

/-- The clause of a try statement, or none, has the flow of its outline. -/
theorem flow_clause_outline (hs : ∀ c, o = some c → c.isSealed = false)
    (ih : ∀ c s, o = some c → c.child? "body" = some s → s.KeepsFlow) :
    ((o.map outline).map fun c => Statement.ofOption (c.child? "body")).map Statement.flow =
      (o.map fun c => Statement.ofOption (c.child? "body")).map Statement.flow := by
  cases o with
  | none => rfl
  | some c =>
    simp only [Option.map_some, child_outline (hs c rfl)]
    exact congrArg some (flow_ofOption_outline fun s hb => ih c s rfl hb)

end

theorem flow_attempt_congr {body body' : Statement} {o o' p p' : Option Statement}
    (hb : body.flow = body'.flow) (ho : o.map Statement.flow = o'.map Statement.flow)
    (hp : p.map Statement.flow = p'.map Statement.flow) :
    (Statement.attempt body o p).flow = (Statement.attempt body' o' p').flow := by
  cases o <;> cases o' <;> cases p <;> cases p' <;> simp_all [Statement.flow]

section

variable {n : Node} (hn : n.isShaped fitsStatement = true)
  (ih : ∀ m : Node, m.size < n.size → m.isShaped fitsStatement = true → m.KeepsFlow)
include hn ih

theorem keepsFlow_of_mem {c : Node} (hs : n.isSealed = false) (hc : c ∈ n.children) :
    c.KeepsFlow :=
  ih c (size_lt_of_mem_children hc) ((fits_of_isShaped hn hs).2 c hc)

theorem map_flow_role_outline (hs : n.isSealed = false) (role : String) :
    ((n.outline.child? role).map fun c => (Statement.ofNode c).flow) =
      (n.child? role).map fun c => (Statement.ofNode c).flow := by
  rw [child_outline hs]
  exact map_flow_outline fun _ hc => keepsFlow_of_mem hn ih hs (mem_of_child hc)

theorem keepsFlow_switch (h : n.kind = "switch_statement") : n.KeepsFlow := by
  have hcases := switchCases_outline (not_isSealed (by rw [h]; decide)) fun _ hb =>
    isSealed_of_switch_body hn h hb
  have hdefault : Statement.hasDefault ((n.switchCases.map outline).map Statement.ofCase) =
      Statement.hasDefault (n.switchCases.map Statement.ofCase) := by
    simp only [Statement.hasDefault_eq, List.any_map, Function.comp_def, kind_outline]
  have hflows : Statement.caseFlows ((n.switchCases.map outline).map Statement.ofCase) =
      Statement.caseFlows (n.switchCases.map Statement.ofCase) := by
    rw [Statement.caseFlows_eq, Statement.caseFlows_eq, List.map_map]
    refine List.map_congr_left fun c hc => ?_
    obtain ⟨hopen, hshape⟩ := case_of_switch hn h hc
    rw [Function.comp_apply, caseParts_outline hopen]
    refine sequence_congr (map_flows_outline fun d hd => ?_)
    refine ih d (size_lt_of_mem_caseParts hc hd) ?_
    exact (fits_of_isShaped hshape hopen).2 d (List.mem_of_mem_eraseP (List.mem_filter.mp hd).1)
  rw [KeepsFlow, Statement.ofNode_switch h, Statement.ofNode_switch (kind_outline.trans h),
    hcases, Statement.flow, Statement.flow, hdefault, hflows]

theorem keepsFlow_try (h : n.kind = "try_statement") : n.KeepsFlow := by
  have hs : n.isSealed = false := not_isSealed (by rw [h]; decide)
  have hclause {role : String}
      (hrole : ∀ c, n.child? role = some c → c.isSealed = false) :
      ((n.outline.child? role).map fun c =>
          Statement.ofOption (c.child? "body")).map Statement.flow =
        ((n.child? role).map fun c =>
          Statement.ofOption (c.child? "body")).map Statement.flow := by
    rw [child_outline hs]
    refine flow_clause_outline hrole fun c s hc hb => ih s ?_ ?_
    · exact Nat.lt_trans (size_lt_of_child hb) (size_lt_of_child hc)
    · have hshape := (fits_of_isShaped hn hs).2 c (mem_of_child hc)
      exact (fits_of_isShaped hshape (hrole c hc)).2 s (mem_of_child hb)
  rw [KeepsFlow, Statement.ofNode_try h, Statement.ofNode_try (kind_outline.trans h)]
  refine flow_attempt_congr ?_ (hclause fun _ hc => isSealed_of_clause hn h (.inl hc))
    (hclause fun _ hc => isSealed_of_clause hn h (.inr hc))
  rw [flow_ofOption, map_flow_role_outline hn ih hs, ← flow_ofOption]

/-- A statement has the flow of its outline if the statements in it have. -/
theorem keepsFlow_of_inner : n.KeepsFlow := by
  have hk : n.outline.kind = n.kind := kind_outline
  have hopen {kinds : List String} (hc : n.kind ∈ kinds) (hall : ∀ s ∈ kinds, s ∉ sealedKinds) :
      n.isSealed = false :=
    not_isSealed (hall _ hc)
  by_cases hown : n.kind ∈ ownKinds
  · have hs := hopen hown (by decide)
    simp only [ownKinds, List.mem_cons, List.not_mem_nil, or_false] at hown
    rcases hown with h | h | h
    · rw [KeepsFlow, Statement.ofNode_return h, Statement.ofNode_return (hk.trans h),
        children_outline hs, find_isPart_outline]
      cases n.children.find? isPart with
      | none => rfl
      | some v => simp only [Option.map_some, valueKinds_outline]
    · exact keepsFlow_switch hn ih h
    · exact keepsFlow_try hn ih h
  by_cases hc : n.kind ∈ controlKinds
  · have hs := hopen hc (by decide)
    refine flow_of_sameFlows hk hown (map_flow_role_outline hn ih hs) ?_
    rw [children_outline hs, filter_isPart_outline]
    exact map_flows_outline fun _ hc => keepsFlow_of_mem hn ih hs (List.mem_filter.mp hc).1
  · rw [KeepsFlow, Statement.ofNode_other hc, Statement.ofNode_other (by rwa [hk])]

end

/-- A statement has the flow of its outline. -/
theorem flow_outline (n : Node) (hn : n.isShaped fitsStatement = true) :
    (Statement.ofNode n.outline).flow = (Statement.ofNode n).flow := by
  induction hsize : n.size using Nat.strongRecOn generalizing n with
  | ind size ih =>
  subst hsize
  exact keepsFlow_of_inner hn fun m hm hs => ih m.size hm m hs rfl

/-! ## Summaries -/

theorem returns_eq_of_body {f f' body body' : Node} (hk : f'.kind = f.kind)
    (hd : f'.isDeferred = f.isDeferred) (hb : f.child? "body" = some body)
    (hb' : f'.child? "body" = some body') (hkind : body'.kind = body.kind)
    (hv : body'.valueKinds = body.valueKinds)
    (hf : (Statement.ofNode body').flow = (Statement.ofNode body).flow) :
    f'.returns = f.returns := by
  simp only [returns, hb, hb', hd, hk, hkind, hv, hf]

/-- Functions whose parts have the same outlines have the same summary. -/
theorem returns_of_outline {f f' : Node} (hk : f'.kind = f.kind)
    (hc : f'.children.map outline = f.children.map outline)
    (hs : ∀ body, f.child? "body" = some body → body.isShaped fitsStatement = true) :
    f'.returns = f.returns := by
  have hbody : (f'.child? "body").map outline = (f.child? "body").map outline := by
    rw [child?, ← find_role_outline, hc, find_role_outline, child?]
  have hdeferred : f'.isDeferred = f.isDeferred := by
    have hany : ∀ cs : List Node, (cs.any fun c => c.kind == "async" || c.kind == "*") =
        (cs.map outline).any fun c => c.kind == "async" || c.kind == "*" := by
      simp [List.any_map, Function.comp_def]
    rw [isDeferred, isDeferred, hk, hany, hc, ← hany]
  cases hb : f.child? "body" with
  | none =>
    rw [hb, Option.map_none, Option.map_eq_none_iff] at hbody
    simp only [returns, hb, hbody]
  | some body =>
    rw [hb] at hbody
    obtain ⟨body', hb', he⟩ := Option.map_eq_some_iff.mp hbody
    have hshape := hs body hb
    have hshape' : body'.isShaped fitsStatement = true := by
      rw [← isShaped_outline, he, isShaped_outline, hshape]
    refine returns_eq_of_body hk hdeferred hb hb' ?_ ?_ ?_
    · rw [← kind_outline (n := body'), he, kind_outline]
    · rw [← valueKinds_outline body', he, valueKinds_outline]
    · rw [← flow_outline body' hshape', he, flow_outline body hshape]

end DocCheck.Node
