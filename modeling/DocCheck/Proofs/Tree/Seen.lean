import DocCheck.Proofs.Tree.Outline

/-!
# What is seen of a node from outside

The statement or expression that a node is in looks for it by its kind and its role,
and then takes from it the kinds of its values, its flow, or, of a clause or a case, the
flow of what is inside. If the nodes in two trees are seen alike, so are the trees. In
the trees of a grammar only the body of a switch holds its cases, and only a clause of
its own follows the body of a try statement.

Results:

* `valueKinds_of_sameInside`, `flow_of_sameInside`: expressions and statements by what is in them.
* `seen_of_sameInside`: a node is seen by what is seen of the nodes in it.
-/
namespace DocCheck.Node

/-! ## Grammar -/

def clauseKinds : List String := ["catch_clause", "finally_clause"]

def caseKinds : List String := ["switch_case", "switch_default"]

/-- The body of a switch is of a kind of its own and holds nothing but cases, and the clauses of a
try statement are of kinds of their own. -/
def fitsGrammar (n : Node) : Bool :=
  if n.kind = "switch_statement" then (n.child? "body").all fun c => c.kind == "switch_body"
  else if n.kind = "switch_body" then
    (n.children.filter isPart).all fun c => caseKinds.contains c.kind
  else if n.kind = "try_statement" then
    ((n.child? "handler").all fun c => clauseKinds.contains c.kind) &&
      (n.child? "finalizer").all fun c => clauseKinds.contains c.kind
  else true

/-! ## What is seen -/

def caseFlow (c : Node) : Flow := Statement.sequence (c.caseParts.map Statement.ofNode)

/-- What is seen of a node. -/
@[ext] structure Seen where
  kind : String
  named : Bool
  field : Option String
  values : KindSet
  /-- The kind of the values that it builds as a constructor. -/
  constructed : ValueKind
  flow : Flow
  /-- The flow of the body of a clause. -/
  clause : Flow
  /-- The flow of the statements of a case. -/
  steps : Flow
  /-- The cases in the body of a switch: whether each is the default, and its flow. -/
  cases : List (Bool × Flow)

def seen (n : Node) : Seen where
  kind := n.kind
  named := n.named
  field := n.field
  values := n.valueKinds
  constructed := if n.field = some "constructor" then constructedKind n.text else .object
  flow := (Statement.ofNode n).flow
  clause :=
    if n.kind ∈ clauseKinds then (Statement.ofOption (n.child? "body")).flow else .pass
  steps := if n.kind ∈ caseKinds then n.caseFlow else .pass
  cases :=
    if n.kind = "switch_body" then
      (n.children.filter isPart).map fun c => (c.kind == "switch_default", c.caseFlow)
    else []

/-- The nodes are of one kind and play one role. Their texts may differ, but not those of
identifiers, and not the names of constructors. -/
structure Alike (n n' : Node) : Prop where
  kind : n'.kind = n.kind
  named : n'.named = n.named
  field : n'.field = n.field
  text : n'.text = n.text ∨ n.kind ≠ "identifier" ∧
    (n.field = some "constructor" → n.text ∉ constructorNames ∧ n'.text ∉ constructorNames)

/-- Whatever is looked for in the nodes is seen alike. -/
structure SameInside (n n' : Node) : Prop where
  role (role : String) : (n'.child? role).map seen = (n.child? role).map seen
  parts : (n'.children.filter isPart).map seen = (n.children.filter isPart).map seen
  caseParts : n'.caseParts.map seen = n.caseParts.map seen

section

variable {n n' : Node}

theorem Alike.isSealed (h : Alike n n') : n'.isSealed = n.isSealed := by
  rw [Node.isSealed, h.kind, h.named, Node.isSealed]

theorem Alike.constructed (h : Alike n n') : n'.seen.constructed = n.seen.constructed := by
  unfold seen
  dsimp only
  rw [h.field]
  split
  · rename_i hf
    rcases h.text with ht | ⟨-, ht⟩
    · rw [ht]
    · rw [constructedKind_of_not_mem (ht hf).1, constructedKind_of_not_mem (ht hf).2]
  · rfl

/-- What is taken from what is seen of an optional node. -/
theorem map_of_seen {α : Type} {o o' : Option Node} (h : o'.map seen = o.map seen)
    (g : Seen → α) : (o'.map fun c => g c.seen) = o.map fun c => g c.seen := by
  have := congrArg (Option.map g) h
  rwa [Option.map_map, Option.map_map] at this

theorem maps_of_seen {α : Type} {ns ns' : List Node} (h : ns'.map seen = ns.map seen)
    (g : Seen → α) : (ns'.map fun c => g c.seen) = ns.map fun c => g c.seen := by
  have := congrArg (List.map g) h
  rwa [List.map_map, List.map_map] at this

/-! ## Expressions -/

theorem field_of_child {role : String} {c : Node} (h : n.child? role = some c) :
    c.field = some role := by
  simpa using List.find?_some h

theorem SameInside.childKind (h : SameInside n n') (role : String) :
    n'.childKind role = n.childKind role := by
  have hkind := map_of_seen (h.role role) Seen.kind
  unfold Node.childKind
  cases ho : n.child? role <;> cases ho' : n'.child? role <;> simp_all [seen]

theorem SameInside.values (h : SameInside n n') (role : String) :
    (n'.child? role).map valueKinds = (n.child? role).map valueKinds :=
  map_of_seen (h.role role) Seen.values

theorem constructedKind_childText (n : Node) : constructedKind (n.childText "constructor") =
    ((n.child? "constructor").map fun c => c.seen.constructed).getD .object := by
  cases hc : n.child? "constructor" with
  | none => rw [childText, hc]; rfl
  | some c =>
    rw [childText_eq hc, Option.map_some, Option.getD_some]
    exact (if_pos (field_of_child hc)).symm

theorem SameInside.constructed (h : SameInside n n') :
    constructedKind (n'.childText "constructor") = constructedKind (n.childText "constructor") := by
  rw [constructedKind_childText, constructedKind_childText,
    map_of_seen (h.role "constructor") Seen.constructed]

/-- An expression has the kinds of what is seen in it. -/
theorem valueKinds_of_sameInside (ha : Alike n n') (h : SameInside n n') :
    n'.valueKinds = n.valueKinds := by
  have hk := ha.kind
  cases hl : literalKind? n.kind with
  | some k => rw [valueKinds_literal hl, valueKinds_literal (hk ▸ hl)]
  | none =>
    by_cases hform : n.kind ∈ tellingForms
    · simp only [tellingForms, List.mem_cons, List.not_mem_nil, or_false] at hform
      rcases hform with hn | hn | hn | hn | hn | hn
      · have ht : n'.text = n.text := ha.text.resolve_right fun ht => ht.1 hn
        rw [valueKinds_identifier hn, valueKinds_identifier (hk.trans hn), ht]
      · have hlast := congrArg List.getLast? (maps_of_seen h.parts Seen.values)
        rw [List.getLast?_map, List.getLast?_map] at hlast
        rw [valueKinds_parenthesized hn, valueKinds_parenthesized (hk.trans hn)]
        exact congrArg (fun o => Option.getD o _) hlast
      · have hc := h.values "consequence"
        have ha := h.values "alternative"
        rw [valueKinds_ternary hn, valueKinds_ternary (hk.trans hn)]
        generalize n.child? "consequence" = c, n'.child? "consequence" = c' at hc
        generalize n.child? "alternative" = a, n'.child? "alternative" = a' at ha
        cases c <;> cases c' <;> cases a <;> cases a' <;> simp_all
      · rw [valueKinds_new hn, valueKinds_new (hk.trans hn), h.constructed]
      · rw [valueKinds_unary hn, valueKinds_unary (hk.trans hn), h.childKind]
      · rw [valueKinds_binary hn, valueKinds_binary (hk.trans hn), h.childKind, h.values, h.values]
    · rw [valueKinds_other hl hform, valueKinds_other (by rw [hk, hl]) (by rwa [hk])]

/-! ## Clauses and cases -/

theorem SameInside.flow (h : SameInside n n') (role : String) :
    ((n'.child? role).map fun c => (Statement.ofNode c).flow) =
      (n.child? role).map fun c => (Statement.ofNode c).flow :=
  map_of_seen (h.role role) Seen.flow

theorem SameInside.first (h : SameInside n n') :
    (n'.children.find? isPart).map seen = (n.children.find? isPart).map seen := by
  rw [← List.head?_filter, ← List.head?_filter, ← List.head?_map, ← List.head?_map, h.parts]

theorem clause_of_kind {c : Node} (h : c.kind ∈ clauseKinds) :
    (Statement.ofOption (c.child? "body")).flow = c.seen.clause :=
  (if_pos h).symm

theorem caseFlow_of_kind {c : Node} (h : c.kind ∈ caseKinds) : c.caseFlow = c.seen.steps :=
  (if_pos h).symm

/-- A node that is seen alike is of the same kind. -/
theorem kind_of_seen {P : String → Prop} {o o' : Option Node} (h : o'.map seen = o.map seen)
    (ho : ∀ c, o = some c → P c.kind) (c' : Node) (hc' : o' = some c') : P c'.kind := by
  have hkind := map_of_seen h Seen.kind
  rw [hc'] at hkind
  obtain ⟨c, hc, he⟩ := Option.map_eq_some_iff.mp hkind.symm
  have he : c.kind = c'.kind := he
  exact he ▸ ho c hc

theorem map_clause {o : Option Node} (h : ∀ c, o = some c → c.kind ∈ clauseKinds) :
    (o.map fun c => Statement.ofOption (c.child? "body")).map Statement.flow =
      o.map fun c => c.seen.clause := by
  cases o with
  | none => rfl
  | some c => exact congrArg some (clause_of_kind (h c rfl))

/-- What follows the body of a try statement has the flow of its clause. -/
theorem SameInside.clause (h : SameInside n n') {role : String}
    (hk : ∀ c, n.child? role = some c → c.kind ∈ clauseKinds) :
    ((n'.child? role).map fun c => Statement.ofOption (c.child? "body")).map Statement.flow =
      ((n.child? role).map fun c => Statement.ofOption (c.child? "body")).map Statement.flow := by
  rw [map_clause hk, map_clause (kind_of_seen (h.role role) hk)]
  exact map_of_seen (h.role role) Seen.clause

/-- The flow of a switch is that of the cases that are seen in its body. -/
theorem flow_switch (h : n.kind = "switch_statement")
    (hb : ∀ c, n.child? "body" = some c → c.kind = "switch_body") :
    (Statement.ofNode n).flow =
      Flow.switched ((((n.child? "body").map fun c => c.seen.cases).getD []).any Prod.fst)
        ((((n.child? "body").map fun c => c.seen.cases).getD []).map Prod.snd) := by
  have hcases : ((n.child? "body").map fun c => c.seen.cases).getD [] =
      n.switchCases.map fun c => (c.kind == "switch_default", c.caseFlow) := by
    unfold switchCases
    cases hc : n.child? "body" with
    | none => rfl
    | some c => exact if_pos (hb c hc)
  rw [Statement.ofNode_switch h, Statement.flow, Statement.hasDefault_eq, Statement.caseFlows_eq,
    hcases, List.any_map, List.map_map]
  rfl

/-- The cases in the body of a switch have the flows of their statements. -/
theorem SameInside.cases (h : SameInside n n')
    (hk : ∀ c ∈ n.children.filter isPart, c.kind ∈ caseKinds) :
    ((n'.children.filter isPart).map fun c => (c.kind == "switch_default", c.caseFlow)) =
      (n.children.filter isPart).map fun c => (c.kind == "switch_default", c.caseFlow) := by
  have hview {ns : List Node} (hns : ∀ c ∈ ns, c.kind ∈ caseKinds) :
      (ns.map fun c => (c.kind == "switch_default", c.caseFlow)) =
        ns.map fun c => (c.seen.kind == "switch_default", c.seen.steps) :=
    List.map_congr_left fun c hc => by rw [caseFlow_of_kind (hns c hc)]; rfl
  have hk' : ∀ c ∈ n'.children.filter isPart, c.kind ∈ caseKinds := by
    intro c' hc'
    have hmem : c'.kind ∈ (n.children.filter isPart).map kind :=
      (maps_of_seen h.parts Seen.kind) ▸ List.mem_map_of_mem hc'
    obtain ⟨c, hc, he⟩ := List.mem_map.mp hmem
    exact he ▸ hk c hc
  rw [hview hk, hview hk']
  exact maps_of_seen h.parts fun v => (v.kind == "switch_default", v.steps)

/-! ## Nodes -/

section

variable (hs : n.isShaped fitsGrammar = true)
include hs

theorem kind_of_switch_body (h : n.kind = "switch_statement") :
    ∀ c, n.child? "body" = some c → c.kind = "switch_body" := by
  have hfits := (fits_of_kind hs h (by decide)).1
  rw [fitsGrammar, if_pos h] at hfits
  intro c hc
  simpa [hc] using hfits

theorem kind_of_case (h : n.kind = "switch_body") :
    ∀ c ∈ n.children.filter isPart, c.kind ∈ caseKinds := by
  have hfits := (fits_of_kind hs h (by decide)).1
  rw [fitsGrammar, if_neg (by rw [h]; decide), if_pos h, List.all_eq_true] at hfits
  exact fun c hc => List.contains_iff_mem.mp (hfits c hc)

theorem kind_of_clause (h : n.kind = "try_statement") {role : String}
    (hrole : role = "handler" ∨ role = "finalizer") :
    ∀ c, n.child? role = some c → c.kind ∈ clauseKinds := by
  have hfits := (fits_of_kind hs h (by decide)).1
  rw [fitsGrammar, if_neg (by rw [h]; decide), if_neg (by rw [h]; decide), if_pos h,
    Bool.and_eq_true] at hfits
  intro c hc
  rcases hrole with rfl | rfl
  · exact List.contains_iff_mem.mp (by simpa [hc] using hfits.1)
  · exact List.contains_iff_mem.mp (by simpa [hc] using hfits.2)

/-- A statement has the flow of what is seen in it. -/
theorem flow_of_sameInside (ha : Alike n n') (h : SameInside n n') :
    (Statement.ofNode n').flow = (Statement.ofNode n).flow := by
  have hk := ha.kind
  by_cases hown : n.kind ∈ ownKinds
  · simp only [ownKinds, List.mem_cons, List.not_mem_nil, or_false] at hown
    rcases hown with hn | hn | hn
    · have hvalues := map_of_seen h.first Seen.values
      rw [Statement.ofNode_return hn, Statement.ofNode_return (hk.trans hn)]
      cases ho : n.children.find? isPart <;> cases ho' : n'.children.find? isPart <;>
        simp_all [seen]
    · have hb := kind_of_switch_body hs hn
      have hb' := kind_of_seen (P := (· = "switch_body")) (h.role "body") hb
      rw [flow_switch hn hb, flow_switch (hk.trans hn) hb', map_of_seen (h.role "body") Seen.cases]
    · rw [Statement.ofNode_try hn, Statement.ofNode_try (hk.trans hn)]
      refine flow_attempt_congr ?_ (h.clause (kind_of_clause hs hn (.inl rfl)))
        (h.clause (kind_of_clause hs hn (.inr rfl)))
      rw [flow_ofOption, h.flow, ← flow_ofOption]
  · exact flow_of_sameFlows hk hown h.flow (maps_of_seen h.parts Seen.flow)

/-- A node is seen by what is seen of the nodes in it. -/
theorem seen_of_sameInside (ha : Alike n n') (h : SameInside n n') : n'.seen = n.seen := by
  refine Seen.ext ha.kind ha.named ha.field (valueKinds_of_sameInside ha h) ha.constructed
    (flow_of_sameInside hs ha h) ?_ ?_ ?_
  · dsimp only [seen]
    rw [ha.kind, flow_ofOption, flow_ofOption, h.flow]
  · dsimp only [seen]
    rw [ha.kind, caseFlow, sequence_congr (maps_of_seen h.caseParts Seen.flow), caseFlow]
  · dsimp only [seen]
    rw [ha.kind]
    split
    · rename_i hn
      exact h.cases (kind_of_case hs hn)
    · rfl

end

/-- Of functions and classes nothing is seen of what is inside. -/
theorem seen_of_isSealed (ha : Alike n n') (hs : n.isSealed = true) : n'.seen = n.seen := by
  have hall : ∀ kind ∈ sealedKinds, kind ∉ controlKinds ∧ kind ∉ clauseKinds ∧
      kind ∉ caseKinds ∧ kind ≠ "switch_body" := by
    decide
  have hkind : n.kind ∈ sealedKinds :=
    List.contains_iff_mem.mp ((Bool.and_eq_true _ _).mp hs).2
  obtain ⟨hcontrol, hclause, hcase, hbody⟩ := hall _ hkind
  refine Seen.ext ha.kind ha.named ha.field (valueKinds_of_isSealed hs ha.kind) ha.constructed
    ?_ ?_ ?_ ?_
  · dsimp only [seen]
    rw [Statement.ofNode_other hcontrol, Statement.ofNode_other (ha.kind ▸ hcontrol)]
  · dsimp only [seen]
    rw [ha.kind, if_neg hclause, if_neg hclause]
  · dsimp only [seen]
    rw [ha.kind, if_neg hcase, if_neg hcase]
  · dsimp only [seen]
    rw [ha.kind, if_neg hbody, if_neg hbody]

end

end DocCheck.Node
