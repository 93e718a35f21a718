import DocCheck.Location
import DocCheck.ValueKind

/-!
# Function signatures

What the rules are told about a function: its name and parameters, what its name
says about access, and what it returns. Rules never look at source text (SPEC_FULL
3, FunctionSignatureView).
-/
namespace DocCheck

/-- Access as the name of a function implies it. -/
inductive Access where
  | publicly | privately | protectedly | unknown
deriving DecidableEq, Repr

/-- Which underscore convention a name follows. -/
inductive Underscore where
  | none | leading | trailing
deriving DecidableEq, Repr

/-- Whether calls of a function end by returning a value. -/
inductive Reachability where
  | never | always | sometimes
deriving DecidableEq, Repr

def Access.name : Access → String
  | .publicly => "public"
  | .privately => "private"
  | .protectedly => "protected"
  | .unknown => "unknown"

def Underscore.name : Underscore → String
  | .none => "none"
  | .leading => "leading"
  | .trailing => "trailing"

def Reachability.name : Reachability → String
  | .never => "never"
  | .always => "always"
  | .sometimes => "sometimes"

structure Param where
  name : String
  hasDefault : Bool
deriving DecidableEq, Repr

/-- Which values a function returns. A return without a value does not count. -/
@[ext] structure ReturnSummary where
  reachability : Reachability
  kinds : KindSet

/-- A function without a return of a value. -/
def ReturnSummary.none : ReturnSummary := ⟨.never, .empty⟩

/-- What is known about a function. Parameter names may repeat. -/
structure Signature where
  name : String
  params : List Param
  access : Access
  underscore : Underscore
  returns : ReturnSummary
  /-- The function is assigned to the exports of a module. -/
  isExport : Bool
  location : Location

end DocCheck
