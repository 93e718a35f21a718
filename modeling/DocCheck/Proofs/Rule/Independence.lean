import DocCheck.Proofs.Config.Resolved
import DocCheck.Proofs.Rule.Order

/-!
# Rules are independent

A rule sees its own choice, the comment and the signature, and what it reports
names it. So of all findings those of one rule depend on the choice for this rule
alone. Two choices may be different lists and still say the same: a choice
of known tags is a table, and how its tags are ordered does not matter.

Results:

* `Choice.lookup_tags`: a choice's own tags go before those of its preset.
* `apply_congr`: choices that say the same make a rule report the same.
* `filter_evaluate`: the findings of some rules are what these rules report one after the other.
* `evaluate_independent`: the findings of a rule depend on the choice for this rule alone.
-/
namespace DocCheck

/-! ## Choices that say the same -/

namespace Choice

/-- The choices are equal, or differ only in the order in which they list tags of their own. -/
inductive Same : Choice → Choice → Prop where
  | refl (choice : Choice) : Same choice choice
  | annotations {preset extra extra'}
      (h : ∀ tag, Assoc.lookup tag extra = Assoc.lookup tag extra') :
      Same (.annotations preset extra) (.annotations preset extra')

theorem lookup_tags {preset : Option Preset} {extra : TagTable} (h : (extra.map Prod.fst).Nodup)
    (tag : String) :
    Assoc.lookup tag (annotations preset extra).tags =
      (Assoc.lookup tag extra).or (Assoc.lookup tag (TagTable.ofPreset preset)) :=
  Assoc.lookup_foldl_put h tag _

end Choice

namespace Rule

theorem tagProblem_congr {table table' : TagTable}
    (h : ∀ tag, Assoc.lookup tag table = Assoc.lookup tag table') (t : Tag) :
    tagProblem? table t = tagProblem? table' t := by
  rw [tagProblem?, h]
  rfl

/-- Choices that say the same make a rule report the same. -/
theorem apply_congr {choice choice' : Choice} (h : choice.Same choice') (hc : choice.IsTable)
    (hc' : choice'.IsTable) (s : Subject) (r : RuleId) : apply choice s r = apply choice' s r := by
  cases h with
  | refl => rfl
  | @annotations preset extra extra' h =>
    have htags : ∀ tag, Assoc.lookup tag (Choice.annotations preset extra).tags =
        Assoc.lookup tag (Choice.annotations preset extra').tags := by
      intro tag
      rw [Choice.lookup_tags hc, Choice.lookup_tags hc', h]
    -- only one rule looks into the tables
    cases r with
    | checkAnnotations =>
      simp only [apply, checkAnnotations]
      refine List.filterMap_congr fun t _ => ?_
      rw [tagProblem_congr htags]
    | _ => rfl

end Rule

/-! ## Configurations that agree -/

/-- The configurations both disable the rule, or enable it with choices that say the same. -/
def Config.AgreesOn (config config' : Config) (r : RuleId) : Prop :=
  config.get r = none ∧ config'.get r = none ∨
    ∃ choice choice', config.get r = some choice ∧ config'.get r = some choice' ∧
      choice.Same choice'

namespace Rule

section

variable {entries entries' : List (Value × Value)} {config config' : Config}
  (hc : Config.resolve entries = .ok config) (hc' : Config.resolve entries' = .ok config')
include hc hc'

theorem run_congr {r : RuleId} (h : config.AgreesOn config' r) (s : Subject) :
    run config s r = run config' s r := by
  obtain ⟨hnone, hnone'⟩ | ⟨choice, choice', hget, hget', hsame⟩ := h
  · rw [run, run, hnone, hnone']
  · rw [run, run, hget, hget']
    exact apply_congr hsame (Config.isTable_of_resolve hc hget)
      (Config.isTable_of_resolve hc' hget') s r

end

theorem rule_run (config : Config) (s : Subject) (r : RuleId) : ∀ f ∈ run config s r, f.rule = r :=
  (passes_run config s r).rule

/-- The findings of some rules are what these rules report, one after the other. -/
theorem filter_evaluate (config : Config) (s : Subject) (p : RuleId → Bool) :
    (evaluate config s).filter (fun f => p f.rule) =
      (RuleId.all.filter p).flatMap (run config s) := by
  rw [evaluate_eq_flatMap_run]
  induction RuleId.all with
  | nil => rfl
  | cons r rs ih =>
    have hrule := rule_run config s r
    rw [List.flatMap_cons, List.filter_append, ih, List.filter_cons]
    by_cases hp : p r = true
    · rw [if_pos hp, List.flatMap_cons, List.filter_eq_self.mpr fun f hf => by rw [hrule f hf, hp]]
    · rw [if_neg hp, List.filter_eq_nil_iff.mpr fun f hf => by rw [hrule f hf]; exact hp,
        List.nil_append]

/-- The findings of some rules are the same under configurations that agree on them. -/
theorem filter_evaluate_congr {entries entries' : List (Value × Value)} {config config' : Config}
    (hc : Config.resolve entries = .ok config) (hc' : Config.resolve entries' = .ok config')
    {p : RuleId → Bool} (h : ∀ r, p r = true → config.AgreesOn config' r) (s : Subject) :
    (evaluate config s).filter (fun f => p f.rule) =
      (evaluate config' s).filter fun f => p f.rule := by
  rw [filter_evaluate, filter_evaluate, List.flatMap_def, List.flatMap_def]
  refine congrArg List.flatten (List.map_congr_left fun r hr => ?_)
  exact run_congr hc hc' (h r (List.mem_filter.mp hr).2) s

/-- The findings of a function are those of each rule, one rule after the other in the order in
which they are listed, and each names its rule. What one rule reports depends on the choice for
this rule alone; so a change of one choice leaves the findings of all other rules as they are,
in their order. -/
theorem evaluate_independent (config : Config) (s : Subject) :
    evaluate config s = RuleId.all.flatMap (run config s) ∧
    (∀ r, ∀ f ∈ run config s r, f.rule = r) ∧
    ∀ entries entries' config', Config.resolve entries = .ok config →
      Config.resolve entries' = .ok config' →
      (∀ r, config.AgreesOn config' r →
        (evaluate config s).filter (fun f => f.rule = r) =
          (evaluate config' s).filter fun f => f.rule = r) ∧
      ∀ r, (∀ r', r' ≠ r → config.AgreesOn config' r') →
        (evaluate config s).filter (fun f => f.rule ≠ r) =
          (evaluate config' s).filter fun f => f.rule ≠ r := by
  refine ⟨evaluate_eq_flatMap_run config s, rule_run config s, ?_⟩
  intro entries entries' config' hc hc'
  refine ⟨fun r h => ?_, fun r h => ?_⟩
  · refine filter_evaluate_congr hc hc' (p := fun r' => decide (r' = r)) (fun r' hr => ?_) s
    rw [of_decide_eq_true hr]
    exact h
  · refine filter_evaluate_congr hc hc' (p := fun r' => decide (r' ≠ r)) (fun r' hr => ?_) s
    exact h r' (of_decide_eq_true hr)

/-- A mapping that adds two tags to the known ones, and one that adds them in the other order and
enables another rule. -/
theorem evaluate_independent_reordered :
    let extra : List (Value × Value) := [(.str "remark", .bool false), (.str "todo", .str "some")]
    let entries : List (Value × Value) :=
      [(.str "checkAnnotations", .map [(.str "extra", .map extra)])]
    let entries' : List (Value × Value) :=
      [(.str "checkAnnotations", .map [(.str "extra", .map extra.reverse)]),
        (.str "requireReturnTypes", .bool true)]
    let s : Subject :=
      ⟨some (Comment.parse "/**\n * @return\n * @todo\n * @zoo\n * @remark x */" .start),
        ⟨"f", [], .unknown, .none, .none, false, .start⟩⟩
    ∃ config config', Config.resolve entries = .ok config ∧ Config.resolve entries' = .ok config' ∧
      (evaluate config s).map Finding.message =
        ["Tag @todo requires a value", "Unknown tag @zoo",
          "Tag @remark does not accept a value"] ∧
      (evaluate config s).filter (fun f => f.rule ≠ .requireReturnTypes) =
        (evaluate config' s).filter fun f => f.rule ≠ .requireReturnTypes := by
  intro extra entries entries' s
  refine ⟨_, _, rfl, rfl, by decide +kernel, ?_⟩
  refine ((evaluate_independent _ s).2.2 entries entries' _ rfl rfl).2 .requireReturnTypes ?_
  intro r hr
  cases r with
  | checkAnnotations =>
    have hsame : ∀ tag : String,
        Assoc.lookup tag [("remark", Requirement.noValue), ("todo", .requiredValue)] =
          Assoc.lookup tag [("todo", .requiredValue), ("remark", .noValue)] := by
      intro tag
      by_cases h : "remark" = tag
      · subst h
        decide
      · simp [Assoc.lookup, h]
    exact .inr ⟨_, _, rfl, rfl, .annotations hsame⟩
  | requireReturnTypes => exact absurd rfl hr
  | _ => exact .inl ⟨rfl, rfl⟩

end Rule

end DocCheck
