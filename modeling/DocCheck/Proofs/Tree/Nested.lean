import DocCheck.Proofs.Tree.Outline
import DocCheck.Proofs.Tree.Soundness

/-!
# Functions and classes inside a function

What a function returns does not depend on what the functions and classes inside it
return, take or contain. So one of them may be replaced by another of its kind,
wherever it stands: as a statement, as a returned value or a part of one, in a
condition, or inside one more function. With it the texts of what is around it
change, and the places of what stands behind it.

Results:

* `Replaced.outline_eq`: the outline of a tree is left as it is.
* `returns_of_replaced`: so is the summary of the function around.
-/
namespace DocCheck.Node

mutual

def unplaced : Node → Node
  | .mk kind named field text _ _ cs => .mk kind named field text 0 0 (allUnplaced cs)

def allUnplaced : List Node → List Node
  | [] => []
  | c :: cs => unplaced c :: allUnplaced cs

end

mutual

theorem outline_unplaced : ∀ n : Node, n.unplaced.outline = n.outline
  | .mk _ _ _ _ _ _ cs => by simp only [unplaced, outline, outlines_allUnplaced cs]

theorem outlines_allUnplaced : ∀ cs : List Node, outlines (allUnplaced cs) = outlines cs
  | [] => rfl
  | c :: cs => by simp only [allUnplaced, outlines, outline_unplaced c, outlines_allUnplaced cs]

end

theorem map_outline_of_unplaced {cs cs' : List Node} (h : cs'.map unplaced = cs.map unplaced) :
    cs'.map outline = cs.map outline := by
  have hall : ∀ cs : List Node, (cs.map unplaced).map outline = cs.map outline := by
    simp [Function.comp_def, outline_unplaced]
  rw [← hall, h, hall]

/-! ## Trees with another node in one place -/

/-- The nodes are of one kind, play one role, and have the same children but for the places of these
and for one child, which is `c` in the first and `c'` in the second. -/
structure Around (n n' c c' : Node) : Prop where
  kind : n'.kind = n.kind
  named : n'.named = n.named
  field : n'.field = n.field
  children : ∃ before after before' after', n.children = before ++ c :: after ∧
    n'.children = before' ++ c' :: after' ∧
    before'.map unplaced = before.map unplaced ∧ after'.map unplaced = after.map unplaced

/-- The nodes are functions or classes of one kind in one role, and no constructor has the text of
one of them for its name. -/
structure Exchanged (n n' : Node) : Prop where
  kind : n'.kind = n.kind
  named : n'.named = n.named
  field : n'.field = n.field
  isSealed : n.isSealed = true
  text : n.text ∉ constructorNames
  text' : n'.text ∉ constructorNames

/-- The text of a node may change with what is inside, unless it is an identifier or the name of a
constructor. -/
def MayRead (n n' : Node) : Prop :=
  n'.text = n.text ∨
    n.kind ≠ "identifier" ∧ n.text ∉ constructorNames ∧ n'.text ∉ constructorNames

/-- One function or class strictly inside the first tree is replaced by another of its kind. -/
inductive Replaced : Node → Node → Prop where
  | child {n n' c c'} (h : Around n n' c c') (ht : MayRead n n') (hc : Exchanged c c') :
      Replaced n n'
  | deeper {n n' c c'} (h : Around n n' c c') (ht : MayRead n n') (hc : Replaced c c') :
      Replaced n n'

section

variable {n n' c c' : Node}

theorem MayRead.tellingText_eq (h : MayRead n n') (hk : n'.kind = n.kind) :
    tellingText n'.kind n'.text = tellingText n.kind n.text := by
  rcases h with h | ⟨hi, ht, ht'⟩
  · rw [hk, h]
  · simp [tellingText, hk, hi, ht, ht']

theorem outline_congr (hk : n'.kind = n.kind) (hn : n'.named = n.named) (hf : n'.field = n.field)
    (ht : MayRead n n')
    (hc : n.isSealed = true ∨ n'.children.map outline = n.children.map outline) :
    n'.outline = n.outline := by
  have hs : n'.isSealed = n.isSealed := by rw [isSealed, hk, hn, isSealed]
  rw [outline_eq_mk n', outline_eq_mk n, ht.tellingText_eq hk, hk, hn, hf, hs]
  rcases hc with hsealed | hc
  · rw [if_pos hsealed, if_pos hsealed]
  · rw [hc]

theorem Exchanged.outline_eq (h : Exchanged n n') : n'.outline = n.outline := by
  have hkind : n.kind ≠ "identifier" := by
    intro hk
    have hs := h.isSealed
    rw [not_isSealed (by rw [hk]; decide)] at hs
    cases hs
  exact outline_congr h.kind h.named h.field (.inr ⟨hkind, h.text, h.text'⟩) (.inl h.isSealed)

theorem Around.map_outline (h : Around n n' c c') (hc : c'.outline = c.outline) :
    n'.children.map outline = n.children.map outline := by
  obtain ⟨before, after, before', after', he, he', hbefore, hafter⟩ := h.children
  rw [he, he', List.map_append, List.map_append, List.map_cons, List.map_cons, hc,
    map_outline_of_unplaced hbefore, map_outline_of_unplaced hafter]

theorem Around.outline_eq (h : Around n n' c c') (ht : MayRead n n')
    (hc : c'.outline = c.outline) : n'.outline = n.outline :=
  outline_congr h.kind h.named h.field ht (.inr (h.map_outline hc))

/-- Another function or class in the place of one leaves the outline as it is. -/
theorem Replaced.outline_eq (h : Replaced n n') : n'.outline = n.outline := by
  induction h with
  | child h ht hc => exact h.outline_eq ht hc.outline_eq
  | deeper h ht _ ih => exact h.outline_eq ht ih

end

/-! ## The summary of the function around -/

/-- A function keeps its summary when a function or class strictly inside its body is replaced by
any other of its kind in its place, if neither text is the name of a constructor that builds values
of a kind of its own. As in the trees of a grammar, no function or class of the body stands in the
place of a case of a switch or of a clause of a try statement. -/
theorem returns_of_replaced {f f' body body' : Node} (hb : f.child? "body" = some body)
    (hs : body.isShaped fitsStatement = true) (hf : Around f f' body body')
    (h : Replaced body body') : f'.returns = f.returns := by
  refine returns_of_outline hf.kind (hf.map_outline h.outline_eq) fun b hb' => ?_
  cases hb.symm.trans hb'
  exact hs

/-- The block `{ if (x) return inner; done(); }`; its last statement starts on the given row. -/
def holding (inner : Node) (row : Nat) : Node :=
  .mk "statement_block" true (some "body") "" 0 0
    [.mk "if_statement" true none ("if (x) return " ++ inner.text ++ ";") 0 2
        [.mk "identifier" true (some "condition") "x" 0 6 [],
          .mk "return_statement" true (some "consequence") ("return " ++ inner.text ++ ";") 0 9
            [.mk "return" false none "return" 0 9 [], inner]],
      .mk "expression_statement" true none "done();" row 2 []]

/-- The function `function () { return 'a'; }`. -/
def naming : Node :=
  .mk "function_expression" true none "function () \x7b return 'a'; \x7d" 0 16
    [.mk "statement_block" true (some "body") "\x7b return 'a'; \x7d" 0 28
      [.mk "return_statement" true none "return 'a';" 0 30
        [.mk "string" true none "'a'" 0 37 []]]]

/-- The function `function (y) { }`, over two lines. -/
def dropping : Node :=
  .mk "function_expression" true none "function (y) \x7b\n\x7d" 0 16
    [.mk "formal_parameters" true (some "parameters") "(y)" 0 25
        [.mk "identifier" true none "y" 0 26 []],
      .mk "statement_block" true (some "body") "\x7b\n\x7d" 0 29 []]

/-- What the returned function returns makes no difference to what is returned. -/
theorem returns_of_replaced_holding :
    Exchanged naming dropping ∧ Replaced (holding naming 1) (holding dropping 2) ∧
      (functionOf (holding dropping 2)).returns = (functionOf (holding naming 1)).returns ∧
      (functionOf (holding naming 1)).returns.kinds.toList = [.function] := by
  have hexchanged : Exchanged naming dropping := ⟨rfl, rfl, rfl, rfl, by decide, by decide⟩
  have hbranch : ∃ n n', Around (holding naming 1) (holding dropping 2) n n' ∧ Replaced n n' :=
    ⟨_, _, ⟨rfl, rfl, rfl, [], [_], [], [_], rfl, rfl, rfl, rfl⟩,
      .deeper ⟨rfl, rfl, rfl, [_], [], [_], [], rfl, rfl, rfl, rfl⟩
        (.inr ⟨by decide, by decide, by decide⟩)
        (.child ⟨rfl, rfl, rfl, [_], [], [_], [], rfl, rfl, rfl, rfl⟩
          (.inr ⟨by decide, by decide, by decide⟩) hexchanged)⟩
  obtain ⟨n, n', haround, hinner⟩ := hbranch
  have hreplaced : Replaced (holding naming 1) (holding dropping 2) :=
    .deeper haround (.inl rfl) hinner
  exact ⟨hexchanged, hreplaced,
    returns_of_replaced (child_functionOf rfl) rfl
      ⟨rfl, rfl, rfl, [], [], [], [], rfl, rfl, rfl, rfl⟩ hreplaced, rfl⟩

end DocCheck.Node
