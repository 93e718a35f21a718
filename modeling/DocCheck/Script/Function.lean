import DocCheck.Script.Class

/-!
# Functions in expressions

Function expressions and arrow functions. An arrow function starts like an
expression in parentheses, or like a name.
-/
namespace DocCheck.Script

/-- A function from its keyword on, with the words in front of it. Its name may be left out. -/
def functionHead (g : Grammar) : Parse Pieces :=
  seq [eatIf "async", eat "function", eatIf "*", do
    if (← current).isIdentifier then role "name" (identifier "identifier") else return [],
    signature g false]

def isGenerator (head : Pieces) : Bool := head.any fun p => p.kind == "*"

def functionExpression (g : Grammar) : Parse Pieces := do
  let start := (← current).start
  let head ← functionHead g
  let body ← functionBody g
  nodeFrom start (if isGenerator head then "generator_function" else "function_expression")
    (head ++ body)

/-! ## Arrow functions -/

/-- The arrow of a function and what stands behind it. -/
def arrowRest (g : Grammar) (ctx : Context) : Parse Pieces :=
  seq [eat "=>", do
    if ← isNext "\x7b" then functionBody g else role "body" (g (.assignment ctx))]

def nameArrow (g : Grammar) (ctx : Context) : Parse Pieces :=
  node "arrow_function"
    (seq [role "parameter" (identifier "identifier"), arrowRest g ctx])

def listArrow (g : Grammar) (ctx : Context) : Parse Pieces :=
  node "arrow_function" (seq [signature g ctx.plainArrow, arrowRest g ctx])

/-- What starts with `async`: a function, an arrow function, or nothing of the kind. -/
def asyncFunction (g : Grammar) (ctx : Context) : Parse Pieces := do
  let t ← following
  require !t.newlineBefore
  if t.isText "function" then functionExpression g
  else if t.isIdentifier then
    node "arrow_function"
      (seq [eat "async", role "parameter" (identifier "identifier"), arrowRest g ctx])
  else
    node "arrow_function" (seq [eat "async", signature g ctx.plainArrow, arrowRest g ctx])

/-- The bracket that comes next is closed in front of one of these marks. -/
def closesBefore (texts : List String) : Parse Bool := do
  return (← lookahead (do passBrackets; isNextOf texts)).getD false

end DocCheck.Script
