import DocCheck.Signature.Basic
import DocCheck.Tree.Statement

/-!
# Which values a function returns

Four facts about a statement are collected from the statements in it: the kinds of
values that it may return, whether it may return without a value, whether control
may run past its end, and whether a jump may leave it. What stands behind a
statement that control cannot run past does not count (SPEC_FULL 3,
ReturnSummary).

Limitations: trees may nest to any depth; a stack that runs out is not modelled.

Results:

* `Flow.andThen_assoc`: three statements in a row can be grouped either way.
* `Statement.sequence_append`: the flow of a list of statements is that of its parts in order.
-/
namespace DocCheck

/-- What may happen when control enters a statement. -/
@[ext] structure Flow where
  /-- The kinds of the values that may be returned. -/
  kinds : KindSet
  /-- A return without a value may happen. -/
  bare : Bool
  /-- Control may run past the end. -/
  completes : Bool
  /-- A jump may leave the statement. -/
  breaks : Bool

namespace Flow

/-- Control runs past the end, and nothing else happens. -/
def pass : Flow := ⟨.empty, false, true, false⟩

/-- Nothing happens any more. -/
def stop : Flow := ⟨.empty, false, false, false⟩

/-- Whatever may happen in one of two statements. -/
def either (a b : Flow) : Flow :=
  ⟨a.kinds.union b.kinds, a.bare || b.bare, a.completes || b.completes, a.breaks || b.breaks⟩

def andThen (a b : Flow) : Flow :=
  if a.completes then
    ⟨a.kinds.union b.kinds, a.bare || b.bare, b.completes, a.breaks || b.breaks⟩
  else a

@[simp] theorem pass_andThen (a : Flow) : pass.andThen a = a := by
  simp [andThen, pass]

@[simp] theorem andThen_pass (a : Flow) : a.andThen pass = a := by
  obtain ⟨kinds, bare, completes, breaks⟩ := a
  cases completes <;> simp [andThen, pass]

theorem andThen_assoc (a b c : Flow) : (a.andThen b).andThen c = a.andThen (b.andThen c) := by
  obtain ⟨_, _, ac, _⟩ := a
  obtain ⟨_, _, bc, _⟩ := b
  cases ac <;> cases bc <;> simp [andThen, KindSet.union_assoc, Bool.or_assoc]

def looped (a : Flow) : Flow := ⟨a.kinds, a.bare, true, false⟩

def labeled (a : Flow) : Flow := ⟨a.kinds, a.bare, a.completes || a.breaks, false⟩

/-- A statement that is always run after another one. -/
def finalized (a b : Flow) : Flow :=
  ⟨a.kinds.union b.kinds, a.bare || b.bare, a.completes && b.completes, a.breaks || b.breaks⟩

/-- A switch, from the flow of each case and of the last one. -/
def switched (hasDefault : Bool) (cases : List Flow) : Flow :=
  let all := cases.foldr either stop
  let last := (cases.getLast?).getD pass
  ⟨all.kinds, all.bare, !hasDefault || all.breaks || last.completes, false⟩

end Flow

namespace Statement

mutual

/-- What may happen when control enters a statement. -/
def flow : Statement → Flow
  | .value kinds => ⟨kinds, false, false, false⟩
  | .bare => ⟨.empty, true, false, false⟩
  | .throw => .stop
  | .breakTo _ => ⟨.empty, false, false, true⟩
  | .continueTo _ => ⟨.empty, false, false, true⟩
  | .block body => sequence body
  | .branch consequence alternative => (flow consequence).either (flow alternative)
  | .loop _ body => (flow body).looped
  | .switch cases => .switched (hasDefault cases) (caseFlows cases)
  | .attempt body handler finalizer =>
    let tried :=
      match handler with
      | some h => (flow body).either (flow h)
      | none => flow body
    match finalizer with
    | some f => tried.finalized (flow f)
    | none => tried
  | .labeled _ body => (flow body).labeled
  | .plain => .pass

/-- What may happen when control enters the first of several statements. -/
def sequence : List Statement → Flow
  | [] => .pass
  | s :: ss => (flow s).andThen (sequence ss)

def caseFlows : List (Bool × List Statement) → List Flow
  | [] => []
  | (_, body) :: cases => sequence body :: caseFlows cases

def hasDefault : List (Bool × List Statement) → Bool
  | [] => false
  | (isDefault, _) :: cases => isDefault || hasDefault cases

end

theorem sequence_append (ss ts : List Statement) :
    sequence (ss ++ ts) = (sequence ss).andThen (sequence ts) := by
  induction ss with
  | nil => simp [sequence]
  | cons s ss ih => simp [sequence, ih, Flow.andThen_assoc]

end Statement

namespace Node

/-- Calls of the function give back a promise or an iterator. -/
def isDeferred (n : Node) : Bool :=
  ["generator_function_declaration", "generator_function"].contains n.kind ||
    n.children.any fun c => c.kind == "async" || c.kind == "*"

/-- The summary of a body with a given flow. Running off the end is a return without a value. -/
def summaryOf (f : Flow) : ReturnSummary :=
  if f.kinds.isEmpty then .none
  else ⟨if f.bare || f.completes then .sometimes else .always, f.kinds⟩

/-- Which values a function returns. Functions inside it do not count. -/
def returns (n : Node) : ReturnSummary :=
  match n.child? "body" with
  | none => .none
  | some body =>
    if n.isDeferred then ⟨.always, .single .object⟩
    else if n.kind = "arrow_function" ∧ body.kind ≠ "statement_block" then
      ⟨.always, body.valueKinds⟩
    else summaryOf (Statement.ofNode body).flow

end Node

end DocCheck
