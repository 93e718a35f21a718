import Mathlib.Logic.Relation
import DocCheck.Proofs.Tree.Seen

/-!
# Braces and comments

Where a statement may stand, a block of it may stand, and where statements stand in a
row, a block may hold some of them. Comments may stand anywhere. Neither changes what a
function returns, wherever in its body it is done and however often, in either
direction. The body of the function itself stays what it is.

Results:

* `sequence_block`: a block in a row of statements has their flow.
* `Restyled.seen_eq`: what is seen of a tree does not change in one step.
* `returns_of_restyled`: so the summary of a function does not change in many.
-/
namespace DocCheck.Node

/-! ## Blocks of statements -/

def withField (field : Option String) : Node → Node
  | .mk kind named _ text row column cs => .mk kind named field text row column cs

def IsBrace (n : Node) : Prop := n.named = false ∧ n.field = none ∧ n.children = []

/-- A comment without a role. -/
def IsRemark (n : Node) : Prop := n.isComment = true ∧ n.field = none ∧ n.children = []

/-- The block holds these statements between its braces, and plays the role that each of them
played. Comments may stand between them. -/
structure Wraps (role : Option String) (ss : List Node) (block : Node) : Prop where
  kind : block.kind = "statement_block"
  named : block.named = true
  field : block.field = role
  role : ∀ s ∈ ss, IsRemark s ∨ s.isPart = true ∧ s.field = role
  children : ∃ left right, IsBrace left ∧ IsBrace right ∧
    block.children = left :: (ss.map (withField none) ++ [right])

section

variable {role : Option String} {ss : List Node} {block : Node}

theorem ofNode_withField (field : Option String) (n : Node) :
    Statement.ofNode (n.withField field) = Statement.ofNode n := by
  cases n
  rfl

theorem isPart_withField (field : Option String) (n : Node) :
    (n.withField field).isPart = n.isPart := by
  cases n
  rfl

theorem IsBrace.isPart {n : Node} (h : IsBrace n) : n.isPart = false := by
  rw [Node.isPart, h.1, Bool.false_and]

theorem IsRemark.isPart {n : Node} (h : IsRemark n) : n.isPart = false := by
  rw [Node.isPart, h.1, Bool.not_true, Bool.and_false]

theorem Wraps.isPart_block (h : Wraps role ss block) : block.isPart = true := by
  rw [Node.isPart, h.named, isComment, h.kind]
  decide

/-- The block has the statements for its parts. -/
theorem Wraps.parts (h : Wraps role ss block) :
    block.children.filter isPart = (ss.filter isPart).map (withField none) := by
  obtain ⟨left, right, hleft, hright, hcs⟩ := h.children
  have hcomp : isPart ∘ withField none = isPart := funext fun n => isPart_withField none n
  rw [hcs, List.filter_cons_of_neg (by simp [hleft.isPart]), List.filter_append, List.filter_map,
    hcomp, List.filter_cons_of_neg (by simp [hright.isPart]), List.filter_nil, List.append_nil]

/-- A block in a row of statements has the flow of its statements in that row. -/
theorem sequence_block (hk : block.kind = "statement_block") (before after : List Node) :
    Statement.sequence ((before ++ block :: after).map Statement.ofNode) =
      Statement.sequence
        ((before ++ block.children.filter isPart ++ after).map Statement.ofNode) := by
  rw [List.map_append, List.map_cons, Statement.sequence_append, Statement.sequence,
    Statement.ofNode_block hk, Statement.flow, List.map_append, List.map_append,
    Statement.sequence_append, Statement.sequence_append, Flow.andThen_assoc]

/-- Statements in a row have the flow of the row in which a block holds some of them. -/
theorem Wraps.sequence_row (h : Wraps role ss block) (before after : List Node) :
    Statement.sequence (((before ++ block :: after).filter isPart).map Statement.ofNode) =
      Statement.sequence (((before ++ ss ++ after).filter isPart).map Statement.ofNode) := by
  have hcomp : Statement.ofNode ∘ withField none = Statement.ofNode :=
    funext fun n => ofNode_withField none n
  rw [List.filter_append, List.filter_cons_of_pos h.isPart_block, sequence_block h.kind, h.parts]
  simp only [List.filter_append, List.map_append, List.map_map, hcomp]

/-- A block of one statement has its flow. -/
theorem flow_block {s : Node} (hk : block.kind = "statement_block")
    (hs : block.children.filter isPart = [s]) :
    (Statement.ofNode block).flow = (Statement.ofNode s).flow := by
  rw [Statement.ofNode_block hk, hs, Statement.flow, List.map_singleton, Statement.sequence,
    Statement.sequence, Flow.andThen_pass]

end

/-! ## Trees in another style -/

/-- The nodes that hold statements in a row, with the role of the statements. -/
def rowPlaces : List (String × Option String) :=
  [("statement_block", none), ("switch_case", none), ("switch_case", some "body"),
    ("switch_default", none), ("switch_default", some "body")]

/-- The nodes that hold one statement, with its role. -/
def singlePlaces : List (String × Option String) :=
  [("else_clause", none), ("if_statement", some "consequence"), ("for_statement", some "body"),
    ("for_in_statement", some "body"), ("while_statement", some "body"),
    ("do_statement", some "body"), ("labeled_statement", some "body"),
    ("with_statement", some "body")]

/-- These statements stand in a node of the kind so that a block may hold them: any of those in a
row, or the one of a branch, a loop or a label. -/
def MayWrap (kind : String) (role : Option String) (ss : List Node) : Prop :=
  (kind, role) ∈ rowPlaces ∨ (kind, role) ∈ singlePlaces ∧ ∃ s, ss = [s] ∧ s.isPart = true

/-- A step from one tree to another: somewhere a comment is inserted, some statements are put into
a block, or only places and texts change. -/
inductive Restyled : Node → Node → Prop where
  | moved {n n'} (ha : Alike n n') (he : n'.children = n.children) : Restyled n n'
  | comment {n n' c} (before after : List Node) (ha : Alike n n') (hc : IsRemark c)
      (he : n.children = before ++ after) (he' : n'.children = before ++ c :: after) :
      Restyled n n'
  | braces {n n' ss block role} (before after : List Node) (ha : Alike n n')
      (hp : MayWrap n.kind role ss) (hw : Wraps role ss block)
      (he : n.children = before ++ ss ++ after) (he' : n'.children = before ++ block :: after) :
      Restyled n n'
  | inside {n n' c c'} (before after : List Node) (ha : Alike n n')
      (he : n.children = before ++ c :: after) (he' : n'.children = before ++ c' :: after)
      (hc : Restyled c c') : Restyled n n'

section

variable {n n' : Node}

theorem Restyled.alike (h : Restyled n n') : Alike n n' := by
  cases h <;> assumption

/-! ## What is looked for -/

section

variable {α β γ : Type} {f : α → β} {xs ys : List α} (h : ys.map f = xs.map f)
include h

/-- What is looked for by what is seen of it is seen alike. -/
theorem map_find_congr (p : β → Bool) (g : β → γ) :
    ((ys.find? fun a => p (f a)).map fun a => g (f a)) =
      (xs.find? fun a => p (f a)).map fun a => g (f a) := by
  have := congrArg (fun bs => (List.find? p bs).map g) h
  simp only [List.find?_map, Option.map_map] at this
  exact this

theorem map_filter_congr (p : β → Bool) (g : β → γ) :
    ((ys.filter fun a => p (f a)).map fun a => g (f a)) =
      (xs.filter fun a => p (f a)).map fun a => g (f a) := by
  have := congrArg (fun bs => (List.filter p bs).map g) h
  simp only [List.filter_map, List.map_map] at this
  exact this

end

/-- Nodes whose children are seen alike have the same inside. -/
theorem sameInside_of_children (h : n'.children.map seen = n.children.map seen) :
    SameInside n n' := by
  refine ⟨fun role => map_find_congr h (fun v => v.field == some role) id,
    map_filter_congr h (fun v => v.named && !(v.kind == "comment")) id, ?_⟩
  have hvalue := congrArg (fun vs : List Seen => (vs.eraseP fun v => v.field == some "value").filter
    fun v => v.named && !(v.kind == "comment")) h
  rwa [List.eraseP_map, List.eraseP_map, List.filter_map, List.filter_map] at hvalue

variable {before after : List Node}

/-- The value of a case is found before or behind nodes that are no values, whatever these are. -/
theorem exists_eraseP_value (before after : List Node) : ∃ before' after',
    ∀ ns : List Node, (∀ n ∈ ns, n.field ≠ some "value") →
      ((before ++ (ns ++ after)).eraseP fun d => d.field == some "value") =
        before' ++ (ns ++ after') := by
  by_cases h : (before.any fun d => d.field == some "value") = true
  · refine ⟨before.eraseP fun d => d.field == some "value", after, fun ns _ => ?_⟩
    rw [List.eraseP_append, if_pos h]
  · refine ⟨before, after.eraseP fun d => d.field == some "value", fun ns hns => ?_⟩
    rw [List.eraseP_append, if_neg h, List.eraseP_append_right]
    intro d hd
    simpa using hns d hd

theorem child_of_comment {c : Node} (hc : IsRemark c) (he : n.children = before ++ after)
    (he' : n'.children = before ++ c :: after) (role : String) :
    n'.child? role = n.child? role := by
  simp [child?, he, he', List.find?_append, hc.2.1]

/-- A comment is not looked for. -/
theorem sameInside_of_comment {c : Node} (hc : IsRemark c) (he : n.children = before ++ after)
    (he' : n'.children = before ++ c :: after) : SameInside n n' := by
  have hpart := hc.isPart
  refine ⟨fun role => ?_, ?_, ?_⟩
  · rw [child_of_comment hc he he']
  · rw [he, he', List.filter_append, List.filter_cons_of_neg (by simp [hpart]), List.filter_append]
  · have hparts : n'.caseParts = n.caseParts := by
      obtain ⟨before', after', hvalue⟩ := exists_eraseP_value before after
      have hwithout := hvalue [] (by simp)
      have hwith := hvalue [c] (by simp [hc.2.1])
      simp only [List.nil_append, List.singleton_append] at hwithout hwith
      rw [caseParts, caseParts, he, he', hwithout, hwith, List.filter_append, List.filter_append,
        List.filter_cons_of_neg (by simp [hpart])]
    rw [hparts]

/-! ## Putting statements into a block -/

/-- What is around statements that may stand in a block looks for nothing but statements. -/
theorem kind_of_mayWrap {kind : String} {role : Option String} {ss : List Node}
    (h : MayWrap kind role ss) : literalKind? kind = none ∧ kind ∉ tellingForms ∧
      kind ∉ clauseKinds ∧ kind ∉ Place.functionKinds ∧ kind ≠ "switch_body" ∧
      kind ≠ "switch_statement" ∧ kind ≠ "try_statement" := by
  have hall : ∀ p ∈ rowPlaces ++ singlePlaces, literalKind? p.1 = none ∧ p.1 ∉ tellingForms ∧
      p.1 ∉ clauseKinds ∧ p.1 ∉ Place.functionKinds ∧ p.1 ≠ "switch_body" ∧
      p.1 ≠ "switch_statement" ∧ p.1 ≠ "try_statement" := by
    decide
  exact hall (kind, role) (List.mem_append.mpr (h.imp_right And.left))

/-- Statements in a row are those of a block or of a case, and none is the value of the case. -/
theorem kind_of_rowPlaces : ∀ p ∈ rowPlaces, p.2 ≠ some "value" ∧
    (p.1 = "statement_block" ∨ p.1 ∈ caseKinds ∧ p.1 ∉ controlKinds) := by
  decide

theorem kind_of_singlePlaces : ∀ p ∈ singlePlaces, p.1 ∉ caseKinds ∧ p.1 ∉ ownKinds := by
  decide

section

variable {role : Option String} {ss : List Node} {block : Node}

/-- A case has the flow that it has with a block of some of its statements. -/
theorem Wraps.caseFlow_eq (h : Wraps role ss block) (hr : role ≠ some "value")
    (he : n.children = before ++ ss ++ after) (he' : n'.children = before ++ block :: after) :
    n'.caseFlow = n.caseFlow := by
  obtain ⟨before', after', hvalue⟩ := exists_eraseP_value before after
  have hss : ∀ s ∈ ss, s.field ≠ some "value" := by
    intro s hs
    rcases h.role s hs with hs | ⟨-, hs⟩
    · rw [hs.2.1]
      simp
    · rwa [hs]
  have hwithout := hvalue ss hss
  have hwith := hvalue [block] (by simpa [h.field] using hr)
  rw [← List.append_assoc, ← List.append_assoc] at hwithout
  simp only [List.singleton_append] at hwith
  rw [caseFlow, caseFlow, caseParts, caseParts, he, he', hwithout, hwith, h.sequence_row]

/-- A statement that holds one statement has the flow that it has with a block of that. -/
theorem Wraps.flow_single {s : Node} (h : Wraps role [s] block) (hs : s.isPart = true)
    (hk : n'.kind = n.kind) (hown : n.kind ∉ ownKinds)
    (he : n.children = before ++ [s] ++ after) (he' : n'.children = before ++ block :: after) :
    (Statement.ofNode n').flow = (Statement.ofNode n).flow := by
  have hfield : s.field = role := by
    rcases h.role s (List.mem_singleton.mpr rfl) with hr | ⟨-, hr⟩
    · rw [hr.isPart] at hs
      cases hs
    · exact hr
  have hflow : (Statement.ofNode block).flow = (Statement.ofNode s).flow := by
    rw [flow_block h.kind (s := s.withField none) (by rw [h.parts]; simp [hs]), ofNode_withField]
  let view := fun c : Node => (c.field, c.isPart, (Statement.ofNode c).flow)
  have hview : n'.children.map view = n.children.map view := by
    simp [view, he, he', h.field, hfield, h.isPart_block, hs, hflow]
  exact flow_of_sameFlows hk hown
    (fun role => map_find_congr hview (fun v => v.1 == some role) fun v => v.2.2)
    (map_filter_congr hview (fun v => v.2.1) fun v => v.2.2)

/-- A node is seen as it is with a block of some of the statements in it. -/
theorem Wraps.seen_eq (h : Wraps role ss block) (ha : Alike n n') (hp : MayWrap n.kind role ss)
    (he : n.children = before ++ ss ++ after) (he' : n'.children = before ++ block :: after) :
    n'.seen = n.seen := by
  have hk := ha.kind
  obtain ⟨hl, hform, hclause, -, hbody, -⟩ := kind_of_mayWrap hp
  refine Seen.ext hk ha.named ha.field ?_ ha.constructed ?_ ?_ ?_ ?_
  · exact (valueKinds_other (hk ▸ hl) (hk ▸ hform)).trans (valueKinds_other hl hform).symm
  · dsimp only [seen]
    rcases hp with hp | ⟨hp, s, rfl, hs⟩
    · rcases (kind_of_rowPlaces _ hp).2 with hn | ⟨-, hn⟩
      · rw [Statement.ofNode_block hn, Statement.ofNode_block (hk.trans hn), Statement.flow,
          Statement.flow, he, he', h.sequence_row]
      · rw [Statement.ofNode_other hn, Statement.ofNode_other (hk ▸ hn)]
    · exact h.flow_single hs hk (kind_of_singlePlaces _ hp).2 he he'
  · dsimp only [seen]
    rw [hk, if_neg hclause, if_neg hclause]
  · dsimp only [seen]
    rw [hk]
    split
    · rename_i hcase
      rcases hp with hp | ⟨hp, -⟩
      · exact h.caseFlow_eq (kind_of_rowPlaces _ hp).1 he he'
      · exact absurd hcase (kind_of_singlePlaces _ hp).1
    · rfl
  · dsimp only [seen]
    rw [hk, if_neg hbody, if_neg hbody]

end

/-! ## Shapes -/

/-- A node fits by the kinds of what is looked for in it. -/
theorem fitsGrammar_congr (hk : n'.kind = n.kind)
    (hrole : ∀ role, (n'.child? role).map kind = (n.child? role).map kind)
    (hparts : (n'.children.filter isPart).map kind = (n.children.filter isPart).map kind) :
    fitsGrammar n' = fitsGrammar n := by
  have hany (p : String → Bool) (role : String) :
      ((n'.child? role).all fun c => p c.kind) = (n.child? role).all fun c => p c.kind := by
    have := congrArg (Option.all p) (hrole role)
    rwa [Option.all_map, Option.all_map] at this
  have hall : ((n'.children.filter isPart).all fun c => caseKinds.contains c.kind) =
      (n.children.filter isPart).all fun c => caseKinds.contains c.kind := by
    have := congrArg (fun ks => List.all ks caseKinds.contains) hparts
    rwa [List.all_map, List.all_map] at this
  rw [fitsGrammar, hk, hall, hany (· == "switch_body"), hany clauseKinds.contains,
    hany clauseKinds.contains, fitsGrammar]

/-- A node fits if it fits with another node of the same kind and role in the place of one. -/
theorem fitsGrammar_inside {c c' : Node} (hk : n'.kind = n.kind) (hc : Alike c c')
    (he : n.children = before ++ c :: after) (he' : n'.children = before ++ c' :: after) :
    fitsGrammar n' = fitsGrammar n := by
  let view := fun c : Node => (c.kind, c.named, c.field)
  have hview : n'.children.map view = n.children.map view := by
    simp [view, he, he', hc.kind, hc.named, hc.field]
  exact fitsGrammar_congr hk
    (fun role => map_find_congr hview (fun v => v.2.2 == some role) Prod.fst)
    (map_filter_congr hview (fun v => v.2.1 && !(v.1 == "comment")) Prod.fst)

theorem isShaped_congr (ha : Alike n n') (hf : fitsGrammar n' = fitsGrammar n)
    (hcs : (∀ c ∈ n'.children, c.isShaped fitsGrammar = true) ↔
      ∀ c ∈ n.children, c.isShaped fitsGrammar = true) :
    n'.isShaped fitsGrammar = n.isShaped fitsGrammar := by
  rw [Bool.eq_iff_iff, isShaped_iff, isShaped_iff, ha.isSealed, hf, hcs]

theorem isShaped_withField (field : Option String) (n : Node) :
    (n.withField field).isShaped fitsGrammar = n.isShaped fitsGrammar := by
  cases n
  rfl

theorem isShaped_leaf (hcs : n.children = []) (hf : fitsGrammar n = true) :
    n.isShaped fitsGrammar = true :=
  isShaped_iff.mpr (.inr ⟨hf, by simp [hcs]⟩)

theorem fitsGrammar_of_kind (h : n.kind ≠ "switch_body" ∧ n.kind ≠ "switch_statement" ∧
    n.kind ≠ "try_statement") : fitsGrammar n = true := by
  rw [fitsGrammar, if_neg h.2.1, if_neg h.1, if_neg h.2.2]

theorem IsRemark.isShaped (h : IsRemark n) : n.isShaped fitsGrammar = true := by
  have hk : n.kind = "comment" := eq_of_beq h.1
  exact isShaped_leaf h.2.2 (fitsGrammar_of_kind (by rw [hk]; decide))

/-- Braces are leaves, which fit whatever their kind is. -/
theorem IsBrace.isShaped (h : IsBrace n) : n.isShaped fitsGrammar = true := by
  refine isShaped_leaf h.2.2 ?_
  simp [fitsGrammar, child?, h.2.2]

theorem Wraps.isShaped_iff {role : Option String} {ss : List Node} {block : Node}
    (h : Wraps role ss block) : block.isShaped fitsGrammar = true ↔
      ∀ s ∈ ss, s.isShaped fitsGrammar = true := by
  obtain ⟨left, right, hleft, hright, hcs⟩ := h.children
  have hfits : fitsGrammar block = true := fitsGrammar_of_kind (by rw [h.kind]; decide)
  have hopen : block.isSealed = false := not_isSealed (by rw [h.kind]; decide)
  simp only [Node.isShaped_iff (n := block), hopen, hfits, hcs, List.forall_mem_cons,
    List.forall_mem_append, List.forall_mem_map, isShaped_withField, hleft.isShaped,
    hright.isShaped]
  simp

/-- A step does not change whether a tree has the shape of the grammar. -/
theorem Restyled.isShaped_eq (h : Restyled n n') :
    n'.isShaped fitsGrammar = n.isShaped fitsGrammar := by
  induction h with
  | moved ha he =>
    have hfits := fitsGrammar_congr ha.kind (by simp [child?, he]) (by rw [he])
    exact isShaped_congr ha hfits (by rw [he])
  | comment before after ha hc he he' =>
    have hsame := sameInside_of_comment hc he he'
    have hfits := fitsGrammar_congr ha.kind (fun role => map_of_seen (hsame.role role) Seen.kind)
      (maps_of_seen hsame.parts Seen.kind)
    refine isShaped_congr ha hfits ?_
    simp only [he, he', List.forall_mem_append, List.forall_mem_cons, hc.isShaped, true_and]
  | braces before after ha hp hw he he' =>
    obtain ⟨-, -, -, -, hkind⟩ := kind_of_mayWrap hp
    have hfits := (fitsGrammar_of_kind (ha.kind ▸ hkind)).trans (fitsGrammar_of_kind hkind).symm
    refine isShaped_congr ha hfits ?_
    simp only [he, he', List.forall_mem_append, List.forall_mem_cons, hw.isShaped_iff, and_assoc]
  | inside before after ha he he' hc ih =>
    refine isShaped_congr ha (fitsGrammar_inside ha.kind hc.alike he he') ?_
    simp only [he, he', List.forall_mem_append, List.forall_mem_cons, ih]

/-! ## What is seen after a step -/

/-- What is seen of a tree of the grammar does not change in one step. -/
theorem Restyled.seen_eq (h : Restyled n n') (hs : n.isShaped fitsGrammar = true) :
    n'.seen = n.seen := by
  induction h with
  | moved ha he => exact seen_of_sameInside hs ha (sameInside_of_children (by rw [he]))
  | comment before after ha hc he he' =>
    exact seen_of_sameInside hs ha (sameInside_of_comment hc he he')
  | braces before after ha hp hw he he' => exact hw.seen_eq ha hp he he'
  | @inside n n' c c' before after ha he he' hc ih =>
    -- a tree of the grammar says nothing of what is inside functions, and nothing of it is seen
    by_cases hsealed : n.isSealed = true
    · exact seen_of_isSealed ha hsealed
    · rw [Bool.not_eq_true] at hsealed
      have hshaped := (fits_of_isShaped hs hsealed).2 c (by simp [he])
      exact seen_of_sameInside hs ha (sameInside_of_children (by simp [he, he', ih hshaped]))

/-! ## The summary of a function -/

/-- A function has the summary that what is seen of its body tells. -/
theorem returns_of_seen {f f' : Node} (hk : f'.kind = f.kind)
    (hd : f'.isDeferred = f.isDeferred)
    (hb : (f'.child? "body").map seen = (f.child? "body").map seen) : f'.returns = f.returns := by
  cases hbody : f.child? "body" with
  | none =>
    rw [hbody, Option.map_none, Option.map_eq_none_iff] at hb
    simp only [returns, hbody, hb]
  | some body =>
    rw [hbody] at hb
    obtain ⟨body', hbody', he⟩ := Option.map_eq_some_iff.mp hb
    exact returns_eq_of_body hk hd hbody hbody' (congrArg Seen.kind he) (congrArg Seen.values he)
      (congrArg Seen.flow he)

/-- The body of a function has the shape of the grammar. -/
def BodyShaped (f : Node) : Prop :=
  ∀ body, f.child? "body" = some body → body.isShaped fitsGrammar = true

/-- Another node in the place of one: it is found for it, or neither is found. -/
theorem child_inside {c c' : Node} (hf : c'.field = c.field)
    (he : n.children = before ++ c :: after) (he' : n'.children = before ++ c' :: after)
    (role : String) : n.child? role = some c ∧ n'.child? role = some c' ∨
      n'.child? role = n.child? role := by
  rw [child?, child?, he, he', List.find?_append, List.find?_append, List.find?_cons,
    List.find?_cons, hf]
  cases before.find? fun c => c.field == some role with
  | some b => exact .inr rfl
  | none =>
    cases c.field == some role
    · exact .inr rfl
    · exact .inl ⟨rfl, rfl⟩

section

variable {f f' : Node}

/-- In one step the body of a function stays as it is, or takes a step itself. -/
theorem Restyled.body (h : Restyled f f') (hk : f.kind ∈ Place.functionKinds) :
    f'.child? "body" = f.child? "body" ∨ ∃ body body', f.child? "body" = some body ∧
      f'.child? "body" = some body' ∧ Restyled body body' := by
  cases h with
  | moved _ he => exact .inl (by rw [child?, he, child?])
  | comment before after _ hc he he' => exact .inl (child_of_comment hc he he' "body")
  | braces _ _ _ hp =>
    obtain ⟨-, -, -, hfunction, -⟩ := kind_of_mayWrap hp
    exact absurd hk hfunction
  | inside before after _ he he' hc =>
    rcases child_inside hc.alike.field he he' "body" with ⟨hb, hb'⟩ | hb
    · exact .inr ⟨_, _, hb, hb', hc⟩
    · exact .inl hb

theorem Restyled.isDeferred_eq (h : Restyled f f') (hk : f.kind ∈ Place.functionKinds) :
    f'.isDeferred = f.isDeferred := by
  rw [isDeferred, isDeferred, h.alike.kind]
  cases h with
  | moved _ he => rw [he]
  | comment before after _ hc he he' =>
    have hcomment := eq_of_beq hc.1
    simp [he, he', hcomment]
  | braces _ _ _ hp =>
    obtain ⟨-, -, -, hfunction, -⟩ := kind_of_mayWrap hp
    exact absurd hk hfunction
  | inside before after _ he he' hc => simp [he, he', hc.alike.kind]

theorem Restyled.bodyShaped_iff (h : Restyled f f') (hk : f.kind ∈ Place.functionKinds) :
    BodyShaped f' ↔ BodyShaped f := by
  rcases h.body hk with hb | ⟨body, body', hb, hb', hbody⟩
  · rw [BodyShaped, hb, BodyShaped]
  · simp only [BodyShaped, hb, hb', Option.some.injEq, forall_eq', hbody.isShaped_eq]

/-- A function keeps its summary in one step. -/
theorem Restyled.returns_eq (h : Restyled f f') (hk : f.kind ∈ Place.functionKinds)
    (hs : BodyShaped f) : f'.returns = f.returns := by
  refine returns_of_seen h.alike.kind (h.isDeferred_eq hk) ?_
  rcases h.body hk with hb | ⟨body, body', hb, hb', hbody⟩
  · rw [hb]
  · rw [hb, hb', Option.map_some, Option.map_some, hbody.seen_eq (hs body hb)]

/-- A function keeps its kind, the shape of its body and its summary in many steps, in either
direction. -/
theorem returns_of_restyled (h : Relation.EqvGen Restyled f f') : f'.kind = f.kind ∧
    (f.kind ∈ Place.functionKinds → (BodyShaped f' ↔ BodyShaped f) ∧
      (BodyShaped f → f'.returns = f.returns)) := by
  -- the shape goes along, since a step back starts at the other function
  induction h with
  | rel f f' h =>
    exact ⟨h.alike.kind, fun hk => ⟨h.bodyShaped_iff hk, h.returns_eq hk⟩⟩
  | refl f => exact ⟨rfl, fun _ => ⟨.rfl, fun _ => rfl⟩⟩
  | symm f f' _ ih =>
    obtain ⟨hkind, hkeep⟩ := ih
    refine ⟨hkind.symm, fun hk => ?_⟩
    obtain ⟨hshape, hreturns⟩ := hkeep (hkind ▸ hk)
    exact ⟨hshape.symm, fun hs => (hreturns (hshape.mp hs)).symm⟩
  | trans f g f' _ _ ih ih' =>
    obtain ⟨hkind, hkeep⟩ := ih
    obtain ⟨hkind', hkeep'⟩ := ih'
    refine ⟨hkind'.trans hkind, fun hk => ?_⟩
    obtain ⟨hshape, hreturns⟩ := hkeep hk
    obtain ⟨hshape', hreturns'⟩ := hkeep' (hkind ▸ hk)
    exact ⟨hshape'.trans hshape, fun hs => (hreturns' (hshape.mpr hs)).trans (hreturns hs)⟩

end

end

/-- Statements have the same flow in a row as with a block of some of them in the row, and a block
of one statement has its flow. A function whose body has the shape of the grammar keeps its summary
when comments and blocks around its statements are inserted or removed anywhere in the body, as
often as one likes; no step makes a block of the body of a function or takes it away. -/
theorem braces_ignored :
    (∀ (before ss after : List Node) (block : Node), block.kind = "statement_block" →
      block.children.filter isPart = ss →
      Statement.sequence ((before ++ [block] ++ after).map Statement.ofNode) =
        Statement.sequence ((before ++ ss ++ after).map Statement.ofNode)) ∧
    (∀ s block : Node, block.kind = "statement_block" → block.children.filter isPart = [s] →
      (Statement.ofNode block).flow = (Statement.ofNode s).flow) ∧
    ∀ f f' : Node, f.kind ∈ Place.functionKinds → BodyShaped f →
      Relation.EqvGen Restyled f f' → f'.returns = f.returns := by
  refine ⟨fun before ss after block hk hss => ?_, fun s block => flow_block,
    fun f f' hk hs h => ((returns_of_restyled h).2 hk).2 hs⟩
  rw [← hss, List.append_assoc, List.singleton_append, sequence_block hk]

/-- The statement `return 1;`. -/
def returningOne (field : Option String) : Node :=
  .mk "return_statement" true field "return 1;" 0 0 [.mk "number" true none "1" 0 0 []]

/-- The block `{ return 1; }` of a branch. -/
def bracedOne : Node :=
  .mk "statement_block" true (some "consequence") "{ return 1; }" 0 0
    [.mk "\x7b" false none "\x7b" 0 0 [], returningOne none, .mk "\x7d" false none "\x7d" 0 0 []]

/-- A remark behind the last statement. -/
def remark : Node := .mk "comment" true none "// done" 1 2 []

/-- The statement `if (x) consequence`. -/
def branching (consequence : Node) : Node :=
  .mk "if_statement" true none "" 0 0
    [.mk "identifier" true (some "condition") "x" 0 0 [], consequence]

/-- A function with these statements and remarks in its body. -/
def holdingAll (ns : List Node) : Node :=
  .mk "function_declaration" true none "" 0 0 [.mk "statement_block" true (some "body") "" 0 0 ns]

/-- A block around the return in `if (x) return 1; // done`, and no remark. -/
theorem braces_ignored_branching :
    (holdingAll [branching bracedOne]).returns =
        (holdingAll [branching (returningOne (some "consequence")), remark]).returns ∧
      (holdingAll [branching bracedOne]).returns.reachability = .sometimes := by
  have hremark : Restyled (holdingAll [branching (returningOne (some "consequence"))])
      (holdingAll [branching (returningOne (some "consequence")), remark]) :=
    .inside [] [] ⟨rfl, rfl, rfl, .inl rfl⟩ rfl rfl <|
      .comment [_] [] ⟨rfl, rfl, rfl, .inl rfl⟩ ⟨rfl, rfl, rfl⟩ rfl rfl
  have hwraps : Wraps (some "consequence") [returningOne (some "consequence")] bracedOne :=
    ⟨rfl, rfl, rfl, fun s hs => .inr (List.mem_singleton.mp hs ▸ ⟨rfl, rfl⟩),
      _, _, ⟨rfl, rfl, rfl⟩, ⟨rfl, rfl, rfl⟩, rfl⟩
  have hbraces : Restyled (holdingAll [branching (returningOne (some "consequence"))])
      (holdingAll [branching bracedOne]) :=
    .inside [] [] ⟨rfl, rfl, rfl, .inl rfl⟩ rfl rfl <|
      .inside [] [] ⟨rfl, rfl, rfl, .inl rfl⟩ rfl rfl <|
        .braces [_] [] ⟨rfl, rfl, rfl, .inl rfl⟩ (.inr ⟨by decide, _, rfl, rfl⟩) hwraps rfl rfl
  have hshaped :
      BodyShaped (holdingAll [branching (returningOne (some "consequence")), remark]) := by
    intro body hb
    cases hb
    rfl
  exact ⟨braces_ignored.2.2 _ _ (by decide) hshaped
    (.trans _ _ _ (.symm _ _ (.rel _ _ hremark)) (.rel _ _ hbraces)), rfl⟩

end DocCheck.Node
