import DocCheck.Proofs.Rule.Independence
import DocCheck.Proofs.Tree.Reached
import DocCheck.Tree.Function

/-!
# Summaries of returns are consistent

A summary says that no value is returned, or tells kinds of the values that are,
never both and never neither. One rule reports tags of return values where no value
is returned, and one where a value always is; so no function is reported by both.

Results:

* `mem_run_of_mem_evaluate`: a finding comes from the rule that it names.
* `not_both_returns`: no function has findings of both rules that look at its summary.
* `summary_consistent`: the summary of a function, and what the rules make of it.
-/
namespace DocCheck.Rule

theorem mem_run_of_mem_evaluate {config : Config} {s : Subject} {f : Finding}
    (h : f ∈ evaluate config s) : f ∈ run config s f.rule := by
  rw [evaluate_eq_flatMap_run] at h
  obtain ⟨r, -, hf⟩ := List.mem_flatMap.mp h
  rw [rule_run config s r f hf]
  exact hf

theorem never_of_mem_checkRedundantReturns {s : Subject} {f : Finding}
    (h : f ∈ checkRedundantReturns s) : s.signature.returns.reachability = .never := by
  unfold checkRedundantReturns at h
  split at h
  · cases h
  · rename_i hc
    exact Classical.not_not.mp fun hn => hc (.inl hn)

theorem always_of_mem_checkReturnTypes {s : Subject} {f : Finding}
    (h : f ∈ checkReturnTypes s) : s.signature.returns.reachability = .always := by
  unfold checkReturnTypes at h
  split at h
  · cases h
  · rename_i hc
    exact Classical.not_not.mp hc

/-- What an enabled rule reports is found by applying it. -/
theorem exists_choice_of_mem_run {config : Config} {s : Subject} {r : RuleId} {f : Finding}
    (h : f ∈ run config s r) : ∃ choice, f ∈ apply choice s r := by
  unfold run at h
  split at h
  · exact ⟨_, h⟩
  · cases h

/-- No function has findings of both rules that look at its summary. -/
theorem not_both_returns (config : Config) (s : Subject) :
    ¬ ((∃ f ∈ evaluate config s, f.rule = .checkRedundantReturns) ∧
      ∃ f ∈ evaluate config s, f.rule = .checkReturnTypes) := by
  rintro ⟨⟨f, hf, hrule⟩, g, hg, hrule'⟩
  have hf := mem_run_of_mem_evaluate hf
  have hg := mem_run_of_mem_evaluate hg
  rw [hrule] at hf
  rw [hrule'] at hg
  obtain ⟨_, hf⟩ := exists_choice_of_mem_run hf
  obtain ⟨_, hg⟩ := exists_choice_of_mem_run hg
  have hnever := never_of_mem_checkRedundantReturns hf
  rw [always_of_mem_checkReturnTypes hg] at hnever
  cases hnever

/-- In every tree, the summary of a function says that no value is returned if and only if it has
no kinds. Every expression has a kind; so for a function that is not deferred and does not give
back an expression, this is so if and only if control gets to no return of a value. And no function
of a tree, with whatever comment and choices, has findings of both rules that look at its
summary. -/
theorem summary_consistent (n : Node) :
    (n.returns.reachability = .never ↔ n.returns.kinds.isEmpty = true) ∧
    (∀ k, n.returns.kinds.has k = true → k ∈ ValueKind.all) ∧
    (∀ e : Node, e.valueKinds.isEmpty = false ∧
      ∀ k, e.valueKinds.has k = true → k ∈ ValueKind.all) ∧
    (∀ body, n.child? "body" = some body → n.isDeferred = false →
      ¬ (n.kind = "arrow_function" ∧ body.kind ≠ "statement_block") →
      (n.returns.reachability = .never ↔ ∀ v, ¬ Node.Reaches v body)) ∧
    ∀ root, ∀ p ∈ Place.functions root, ∀ config comment,
      ¬ ((∃ f ∈ evaluate config ⟨comment, p.subject.signature⟩, f.rule = .checkRedundantReturns) ∧
        ∃ f ∈ evaluate config ⟨comment, p.subject.signature⟩, f.rule = .checkReturnTypes) :=
  ⟨Node.never_iff n, fun k _ => k.mem_all, fun e => ⟨e.isEmpty_valueKinds, fun k _ => k.mem_all⟩,
    fun _ hb hd ha => Node.never_iff_not_reaches hb hd ha,
    fun _ _ _ config _ => not_both_returns config _⟩

/-- The expression `(/* none */)`, which no grammar has. -/
def emptyParentheses : Node :=
  .mk "parenthesized_expression" true none "(/* none */)" 0 0
    [.mk "comment" true none "/* none */" 0 1 []]

/-- The block `{ for (;;) { if (x) return (/* none */); } }`, with nothing but its statements. -/
def searching : Node :=
  .mk "statement_block" true (some "body") "" 0 0
    [.mk "for_statement" true none "" 0 0
      [.mk "statement_block" true (some "body") "" 0 0
        [.mk "if_statement" true none "" 0 0
          [.mk "return_statement" true (some "consequence") "" 0 0 [emptyParentheses]]]]]

/-- A return is found whose value tells nothing: it has the unknown kind. -/
theorem summary_consistent_searching :
    (Node.functionOf searching).child? "body" = some searching ∧
      Node.Reaches emptyParentheses searching ∧
      (Node.functionOf searching).returns.reachability ≠ .never ∧
      (Node.functionOf searching).returns.kinds.isEmpty = false := by
  have hbody : (Node.functionOf searching).child? "body" = some searching :=
    Node.child_functionOf rfl
  have hreaches : Node.Reaches emptyParentheses searching :=
    .enters (.block rfl ⟨[], [], rfl, rfl⟩) <| .enters (.body (.inl rfl) rfl) <|
      .enters (.block rfl ⟨[], [], rfl, rfl⟩) <| .enters (.branch rfl (.inl rfl)) (.value rfl rfl)
  obtain ⟨hempty, -, -, hnever, -⟩ := summary_consistent (Node.functionOf searching)
  have hfound : (Node.functionOf searching).returns.reachability ≠ .never := fun h =>
    (hnever searching hbody rfl (by decide)).mp h _ hreaches
  exact ⟨hbody, hreaches, hfound, by rw [← Bool.not_eq_true, ← hempty]; exact hfound⟩

end DocCheck.Rule
