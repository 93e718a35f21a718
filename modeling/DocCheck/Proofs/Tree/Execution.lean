import DocCheck.Proofs.Tree.Statement

/-!
# Executions of statements

What may happen when control enters a statement, read off the syntax tree.
Nothing is known about values: a condition may come out either way, a switch may
enter at any case, and whatever is evaluated may throw. A jump goes on outwards
until it reaches the statement that it leaves, and a return until it reaches the
function, but for the finalizers on the way.

Executions of all that control may enter, statements, lists of them, loops and
switches on their way, are one relation, `Runs`.
-/
namespace DocCheck

/-- How an execution ends. -/
inductive Outcome where
  | completes
  | throws
  | breaks (label : Option String)
  | continues (label : Option String)
  /-- A return, with the expression of its value if it has one. -/
  | returns (value : Option Node)

namespace Outcome

/-- The end of a loop or switch in which an execution ends in this way: a break without a label
goes no further. -/
def unbroken : Outcome → Outcome
  | breaks none => completes
  | out => out

/-- The end of a statement with a label in which an execution ends in this way. -/
def unlabeled (label : String) : Outcome → Outcome
  | breaks (some l) => if l = label then completes else breaks (some l)
  | out => out

end Outcome

/-- What control enters. -/
inductive Task where
  /-- A statement; where the source leaves it out, there is nothing to do. -/
  | one (s : Option Node)
  | all (ss : List Node)
  /-- A loop that asks whether to go on. -/
  | loop (body : Option Node)
  /-- A loop that runs its body before it asks. -/
  | round (body : Option Node)
  /-- The cases of a switch from the one that is entered on. -/
  | cases (cs : List Node)
  /-- The body of a try statement, and its handler if the body throws. -/
  | guarded (n : Node)

/-- Statements of these kinds evaluate something before they do anything else. -/
def evaluatingKinds : List String := ["throw_statement", "if_statement", "switch_statement"]

/-- An execution may end in this way. -/
inductive Runs : Task → Outcome → Prop where
  | absent : Runs (.one none) .completes
  | other {n} (h : n.kind ∉ Node.controlKinds) : Runs (.one (some n)) .completes
  | throws {n} (h : n.kind ∈ evaluatingKinds ∨ n.kind ∉ Node.controlKinds) :
      Runs (.one (some n)) .throws
  | value {n v} (h : n.kind = "return_statement") (hv : n.children.find? Node.isPart = some v) :
      Runs (.one (some n)) (.returns (some v))
  | valueThrows {n v} (h : n.kind = "return_statement")
      (hv : n.children.find? Node.isPart = some v) : Runs (.one (some n)) .throws
  | bare {n} (h : n.kind = "return_statement") (hv : n.children.find? Node.isPart = none) :
      Runs (.one (some n)) (.returns none)
  | breakTo {n} (h : n.kind = "break_statement") :
      Runs (.one (some n)) (.breaks (Statement.labelOf n.children))
  | continueTo {n} (h : n.kind = "continue_statement") :
      Runs (.one (some n)) (.continues (Statement.labelOf n.children))
  | block {n out} (h : n.kind = "statement_block")
      (hr : Runs (.all (n.children.filter Node.isPart)) out) : Runs (.one (some n)) out
  | clause {n out} (h : n.kind = "else_clause")
      (hr : Runs (.one (n.children.find? Node.isPart)) out) : Runs (.one (some n)) out
  | consequence {n out} (h : n.kind = "if_statement")
      (hr : Runs (.one (n.child? "consequence")) out) : Runs (.one (some n)) out
  | alternative {n out} (h : n.kind = "if_statement")
      (hr : Runs (.one (n.child? "alternative")) out) : Runs (.one (some n)) out
  | loop {n out} (h : Statement.isLoop n.kind = true) (hr : Runs (.loop (n.child? "body")) out) :
      Runs (.one (some n)) out
  | doLoop {n out} (h : n.kind = "do_statement") (hr : Runs (.round (n.child? "body")) out) :
      Runs (.one (some n)) out
  | skip {n} (h : n.kind = "switch_statement")
      (hd : ∀ c ∈ n.switchCases, c.kind ≠ "switch_default") : Runs (.one (some n)) .completes
  | enter {n before c after out} (h : n.kind = "switch_statement")
      (hc : n.switchCases = before ++ c :: after) (hr : Runs (.cases (c :: after)) out) :
      Runs (.one (some n)) out.unbroken
  | unfinalized {n out} (h : n.kind = "try_statement") (hf : n.child? "finalizer" = none)
      (hr : Runs (.guarded n) out) : Runs (.one (some n)) out
  | finalized {n f out} (h : n.kind = "try_statement") (hf : n.child? "finalizer" = some f)
      (hr : Runs (.guarded n) out) (hd : Runs (.one (f.child? "body")) .completes) :
      Runs (.one (some n)) out
  | replaced {n f out out'} (h : n.kind = "try_statement") (hf : n.child? "finalizer" = some f)
      (hr : Runs (.guarded n) out') (hd : Runs (.one (f.child? "body")) out)
      (ha : out ≠ .completes) : Runs (.one (some n)) out
  | labeled {n out} (h : n.kind = "labeled_statement") (hr : Runs (.one (n.child? "body")) out)
      (ha : out ≠ .continues (some (n.childText "label"))) :
      Runs (.one (some n)) (out.unlabeled (n.childText "label"))
  | labeledStops {n} (h : n.kind = "labeled_statement")
      (hr : Runs (.one (n.child? "body")) (.continues (some (n.childText "label")))) :
      Runs (.one (some n)) .completes
  | labeledAgain {n out} (h : n.kind = "labeled_statement")
      (hr : Runs (.one (n.child? "body")) (.continues (some (n.childText "label"))))
      (ha : Runs (.one (some n)) out) : Runs (.one (some n)) out
  | done : Runs (.all []) .completes
  | next {s ss out} (h : Runs (.one (some s)) .completes) (hr : Runs (.all ss) out) :
      Runs (.all (s :: ss)) out
  | leave {s ss out} (h : Runs (.one (some s)) out) (ha : out ≠ .completes) :
      Runs (.all (s :: ss)) out
  | stop {body} : Runs (.loop body) .completes
  | stopThrows {body} : Runs (.loop body) .throws
  | go {body out} (h : Runs (.round body) out) : Runs (.loop body) out
  | again {body out out'} (h : Runs (.one body) out')
      (ha : out' = .completes ∨ out' = .continues none) (hr : Runs (.loop body) out) :
      Runs (.round body) out
  | exit {body out} (h : Runs (.one body) out)
      (ha : out ≠ .completes ∧ out ≠ .continues none) : Runs (.round body) out.unbroken
  | lastCase : Runs (.cases []) .completes
  | nextCase {c cs out} (h : Runs (.all c.caseParts) .completes) (hr : Runs (.cases cs) out) :
      Runs (.cases (c :: cs)) out
  | leaveCase {c cs out} (h : Runs (.all c.caseParts) out) (ha : out ≠ .completes) :
      Runs (.cases (c :: cs)) out
  | body {n out} (h : Runs (.one (n.child? "body")) out)
      (ha : out = .throws → n.child? "handler" = none) : Runs (.guarded n) out
  | handler {n c out} (h : Runs (.one (n.child? "body")) .throws)
      (hc : n.child? "handler" = some c) (hr : Runs (.one (c.child? "body")) out) :
      Runs (.guarded n) out

end DocCheck
