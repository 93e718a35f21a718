import DocCheck.Rule.Access
import DocCheck.Rule.Annotations
import DocCheck.Rule.Params
import DocCheck.Rule.Presence
import DocCheck.Rule.Returns

/-!
# Evaluating rules

A function is checked by every enabled rule in turn; the findings of a rule come
in the order in which it reports them (SPEC_FULL 5, RuleEngine).

Results:

* `evaluate_eq_flatMap_run`: checking by all rules is checking by one after the other.
-/
namespace DocCheck.Rule

/-- The findings of a rule that works in a given way. -/
def apply (choice : Choice) (s : Subject) : RuleId → List Finding
  | .checkAnnotations => checkAnnotations choice s
  | .checkParamNames => checkParamNames s
  | .requireParamTypes => requireParamTypes s
  | .checkRedundantParams => checkRedundantParams s
  | .checkReturnTypes => checkReturnTypes s
  | .checkRedundantReturns => checkRedundantReturns s
  | .requireReturnTypes => requireReturnTypes s
  | .checkTypes => checkTypes choice s
  | .checkRedundantAccess => checkRedundantAccess choice s
  | .leadingUnderscoreAccess => leadingUnderscoreAccess choice s
  | .enforceExistence => enforceExistence choice s
  | .requireHyphenBeforeDescription => requireHyphenBeforeDescription s
  | .requireNewlineAfterDescription => requireNewlineAfterDescription s
  | .disallowNewlineAfterDescription => disallowNewlineAfterDescription s
  | .requireDescriptionCompleteSentence => requireDescriptionCompleteSentence s
  | .requireParamDescription => requireParamDescription s

/-- The findings of one rule; none if it is disabled. -/
def run (config : Config) (s : Subject) (rule : RuleId) : List Finding :=
  match config.get rule with
  | some choice => apply choice s rule
  | none => []

def evaluate (config : Config) (s : Subject) : List Finding :=
  config.enabled.flatMap fun (rule, choice) => apply choice s rule

theorem evaluate_eq_flatMap_run (config : Config) (s : Subject) :
    evaluate config s = RuleId.all.flatMap (run config s) := by
  unfold evaluate Config.enabled
  induction RuleId.all with
  | nil => rfl
  | cons r rs ih =>
    rw [List.filterMap_cons, List.flatMap_cons, ← ih]
    cases h : config.get r <;> simp [run, h]

end DocCheck.Rule
