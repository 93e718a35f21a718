import DocCheck.Tree.Kinds

/-!
# Statements

What counts of a statement for the question which values a function returns:
returns with the kinds of their values, jumps, and the statements that hold
others. All other statements, with the functions and expressions in them, are one
case (SPEC_FULL 3, ReturnSummary).
-/
namespace DocCheck

inductive Statement where
  /-- A return of a value of one of these kinds. -/
  | value (kinds : KindSet)
  /-- A return without a value. -/
  | bare
  | throw
  | breakTo (label : Option String)
  | continueTo (label : Option String)
  | block (body : List Statement)
  | branch (consequence alternative : Statement)
  /-- A loop; some loops run their body before they ask whether to go on. -/
  | loop (runsOnce : Bool) (body : Statement)
  /-- The cases of a switch; a case may be the default. -/
  | switch (cases : List (Bool × List Statement))
  | attempt (body : Statement) (handler finalizer : Option Statement)
  | labeled (label : String) (body : Statement)
  /-- A statement that neither returns nor jumps. -/
  | plain

namespace Statement

def labelOf (cs : List Node) : Option String :=
  (cs.find? fun c => c.field == some "label").map Node.text

/-- The loops that ask first whether to run their body. -/
def isLoop (kind : String) : Bool :=
  ["for_statement", "for_in_statement", "while_statement"].contains kind

mutual

def ofNode : Node → Statement
  | .mk kind _ _ _ _ _ cs =>
    if kind = "return_statement" then
      match cs.find? Node.isPart with
      | some v => .value v.valueKinds
      | none => .bare
    else if kind = "throw_statement" then .throw
    else if kind = "break_statement" then .breakTo (labelOf cs)
    else if kind = "continue_statement" then .continueTo (labelOf cs)
    else if kind = "statement_block" then .block (parts cs)
    else if kind = "else_clause" then firstPart cs
    else if kind = "if_statement" then .branch (ofRole "consequence" cs) (ofRole "alternative" cs)
    else if isLoop kind then .loop false (ofRole "body" cs)
    else if kind = "do_statement" then .loop true (ofRole "body" cs)
    else if kind = "switch_statement" then .switch (casesOfBody cs)
    else if kind = "try_statement" then
      .attempt (ofRole "body" cs) (bodyOfRole "handler" cs) (bodyOfRole "finalizer" cs)
    else if kind = "labeled_statement" then
      .labeled (Node.textOfRole "label" cs) (ofRole "body" cs)
    else .plain

def parts : List Node → List Statement
  | [] => []
  | c :: cs => if c.isPart then ofNode c :: parts cs else parts cs

def firstPart : List Node → Statement
  | [] => .plain
  | c :: cs => if c.isPart then ofNode c else firstPart cs

def ofRole (role : String) : List Node → Statement
  | [] => .plain
  | c :: cs => if c.field = some role then ofNode c else ofRole role cs

def bodyOfRole (role : String) : List Node → Option Statement
  | [] => none
  | c :: cs => if c.field = some role then some (bodyOf c) else bodyOfRole role cs

def bodyOf : Node → Statement
  | .mk _ _ _ _ _ _ cs => ofRole "body" cs

def casesOfBody : List Node → List (Bool × List Statement)
  | [] => []
  | c :: cs => if c.field = some "body" then casesIn c else casesOfBody cs

def casesIn : Node → List (Bool × List Statement)
  | .mk _ _ _ _ _ _ cs => casesAmong cs

def casesAmong : List Node → List (Bool × List Statement)
  | [] => []
  | c :: cs =>
    if c.isPart then (c.kind == "switch_default", caseBody c) :: casesAmong cs
    else casesAmong cs

def caseBody : Node → List Statement
  | .mk _ _ _ _ _ _ cs => partsButValue cs

/-- The statements among the nodes, without the first node that is the value of the case. -/
def partsButValue : List Node → List Statement
  | [] => []
  | c :: cs =>
    if c.field = some "value" then parts cs
    else if c.isPart then ofNode c :: partsButValue cs
    else partsButValue cs

end

end Statement

end DocCheck
