import DocCheck.Script.Element
import DocCheck.Script.Function
import DocCheck.Script.Literal

/-!
# Expressions

Operands, operators and assignments. Binary operators are read by their
strength; a cast takes all operators on its left, up to the whole expression.
-/
namespace DocCheck.Script

/-! ## Operands -/

def parenthesized (g : Grammar) : Parse Pieces :=
  node "parenthesized_expression"
    (seq [eat "(", g (.expressions .any), role "type" (declaredType g), eat ")"])

/-- An expression in parentheses, or the function whose parameters stand in them. -/
def parenthesis (g : Grammar) (ctx : Context) : Parse Pieces := do
  if ← closesBefore ["=>", ":"] then listArrow g ctx <|> parenthesized g
  else parenthesized g <|> listArrow g ctx

/-- What starts with an angle bracket: a generic function, an element or a cast. -/
def angle (g : Grammar) (ctx : Context) : Parse Pieces := do
  if (← get).elements then listArrow g ctx <|> g .element
  else
    listArrow g ctx <|> node "type_assertion" (seq [typeArguments g, g (.unary ctx)])

/-- Two words with a dot between them that are no name. -/
def metaProperty : Parse Pieces := node "meta_property" (seq [take, eat ".", take])

def newExpression (g : Grammar) : Parse Pieces := do
  if (← following).isText "." then metaProperty
  else
    node "new_expression" (seq [eat "new", role "constructor" (g .construct),
      do
        let types ← attempt (role "type_arguments" (typeArguments g))
        return types.getD [],
      ifNext "(" (role "arguments" (arguments g))])

/-- What starts with a word. -/
def word (g : Grammar) (ctx : Context) : Parse Pieces := do
  let t ← current
  if ["this", "super", "true", "false", "null"].contains t.text then leaf t.text true
  else if t.text == "function" then functionExpression g
  else if t.text == "class" then node "class" (classRest g)
  else if t.text == "new" then newExpression g
  else if t.text == "import" then
    if (← following).isText "." then metaProperty else leaf "import" true
  else if (← following).isText "=>" then nameArrow g ctx
  else if t.text == "async" then asyncFunction g ctx <|> plainIdentifier
  else plainIdentifier

/-- An expression without operators around it and without calls or members behind it. -/
def primary (g : Grammar) (ctx : Context) : Parse Pieces := do
  let t ← current
  match t.kind with
  | .number => leaf "number" true
  | .string => leaf "string" true
  | .privateName => leaf "private_property_identifier" true
  | .name => word g ctx
  | .mark =>
    if t.text == "(" then parenthesis g ctx
    else if t.text == "[" then array g
    else if t.text == "\x7b" then object g
    else if t.text == "`" then template g
    else if t.text == "/" || t.text == "/=" then regex
    else if t.text == "<" then angle g ctx
    else if t.text == "@" then node "class" (seq [decorators g, classRest g])
    else failure
  | _ => failure

/-! ## Calls and members -/

def memberName : Parse Pieces := do
  match (← current).kind with
  | .name => leaf "property_identifier" true
  | .privateName => leaf "private_property_identifier" true
  | _ => failure

/-- Types for a call; for no call they are taken only where no operand can follow. -/
def callTypes (g : Grammar) : Parse Pieces := do
  let types ← role "type_arguments" (typeArguments g)
  let t ← current
  require (t.newlineBefore || t.kind = .stop ||
    ["(", "`", ")", "]", ",", ";", ":", "\x7d"].any t.isText)
  return types

/-- What stands behind an operand with which it forms a larger one, and the kind of that; the
operand itself is given in its role. -/
def suffixOf (g : Grammar) (calls : Bool) (left : Pieces) : Parse (String × Pieces) := do
  let from' := fun (name : String) => left.map (Piece.inRole name)
  let index := seq [eat "[", role "index" (g (.expressions .any)), eat "]"]
  if ← isNext "." then
    return ("member_expression", from' "object" ++ (← seq [take, role "property" memberName]))
  else if ← isNext "[" then return ("subscript_expression", from' "object" ++ (← index))
  else
    require calls
    if ← isNext "(" then
      return ("call_expression", from' "function" ++ (← role "arguments" (arguments g)))
    else if ← isNext "`" then
      return ("call_expression", from' "function" ++ (← role "arguments" (template g)))
    else if ← isNext "?." then
      let t ← following
      if t.isText "(" then
        return ("call_expression", from' "function" ++ (← seq [take,
          role "arguments" (arguments g)]))
      else
        let chain ← role "optional_chain" (node "optional_chain" take)
        if t.isText "[" then
          return ("subscript_expression", from' "object" ++ chain ++ (← index))
        else
          return ("member_expression", from' "object" ++ chain ++ (← role "property" memberName))
    else
      let types ← callTypes g
      if ← isNext "(" then
        return ("call_expression", from' "function" ++ types ++
          (← role "arguments" (arguments g)))
      else if ← isNext "`" then
        return ("call_expression", from' "function" ++ types ++
          (← role "arguments" (template g)))
      else return ("instantiation_expression", left ++ types)

/-- An operand with all that stands behind it. -/
def suffixesFrom (g : Grammar) (start : Cursor) (calls : Bool) : Nat → Pieces → Parse Pieces
  | 0, _ => failure
  | n + 1, left => do
    match ← attempt (suffixOf g calls left) with
    | some (kind, parts) => suffixesFrom g start calls n (← nodeFrom start kind parts)
    | none => return left

def suffixes (g : Grammar) (start : Cursor) (calls : Bool) (left : Pieces) : Parse Pieces := do
  suffixesFrom g start calls (← get).bound left

/-- An operand with its members and calls. -/
def operand (g : Grammar) (calls : Bool) (ctx : Context) : Parse Pieces := do
  let start := (← current).start
  suffixes g start calls (← primary g ctx)

/-! ## Unary operators -/

def unaryOperators : List String := ["!", "~", "-", "+", "typeof", "void", "delete"]

/-- An operand with the operators in front of it, or with an update. -/
def unary (g : Grammar) (ctx : Context) : Parse Pieces := do
  if ← isNextOf unaryOperators then
    node "unary_expression"
      (seq [role "operator" take, role "argument" (g (.unary ctx))])
  else if ← isNextOf ["++", "--"] then
    node "update_expression"
      (seq [role "operator" take, role "argument" (g (.unary ctx))])
  else if ← isNext "await" then
    node "await_expression" (seq [take, g (.binary 13 true ctx)])
  else
    let start := (← current).start
    let left ← operand g true ctx
    if (← isNextOf ["++", "--"]) && (← sameLine) then
      nodeFrom start "update_expression"
        (left.map (Piece.inRole "argument") ++ (← role "operator" take))
    else return left

/-! ## Binary operators -/

/-- How strongly a binary operator binds. -/
def strength? (ctx : Context) (t : Token) : Option Nat :=
  if t.isText "instanceof" || (t.isText "in" && !ctx.noIn) then some 8
  else if t.kind = .mark then
    match t.text with
    | "??" => some 1
    | "||" => some 2
    | "&&" => some 3
    | "|" => some 4
    | "^" => some 5
    | "&" => some 6
    | "==" => some 7
    | "!=" => some 7
    | "===" => some 7
    | "!==" => some 7
    | "<" => some 8
    | ">" => some 8
    | "<=" => some 8
    | ">=" => some 8
    | "<<" => some 9
    | ">>" => some 9
    | ">>>" => some 9
    | "+" => some 10
    | "-" => some 10
    | "*" => some 11
    | "/" => some 11
    | "%" => some 11
    | "**" => some 12
    | _ => none
  else none

/-- A cast of what stands on the left, or the claim that it is not null. -/
def castOf (g : Grammar) (start : Cursor) (left : Pieces) : Parse Pieces := do
  require (← sameLine)
  if ← isNext "as" then
    nodeFrom start "as_expression"
      (left ++ (← seq [take, plainNode "type" (do let _ ← g .type)]))
  else if ← isNext "satisfies" then
    nodeFrom start "satisfies_expression"
      (left ++ (← seq [take, plainNode "type" (do let _ ← g .type)]))
  else
    let mark ← eat "!"
    suffixes g start true (← nodeFrom start "non_null_expression" (left ++ mark))

/-- A left operand with the operators behind it that bind strongly enough. -/
def operatorsFrom (g : Grammar) (start : Cursor) (strength : Nat) (casts : Bool) (ctx : Context) :
    Nat → Pieces → Parse Pieces
  | 0, _ => failure
  | n + 1, left => do
    let cast ← if casts then attempt (castOf g start left) else pure none
    match cast with
    | some whole => operatorsFrom g start strength casts ctx n whole
    | none =>
      let t ← current
      match strength? ctx t with
      | none => return left
      | some s =>
        if s < strength then return left
        else
          let isRight := t.text == "**"
          let parts ← seq [role "operator" take,
            role "right" (g (.binary (if isRight then s else s + 1) isRight ctx))]
          let whole ← nodeFrom start "binary_expression" (left.map (Piece.inRole "left") ++ parts)
          operatorsFrom g start strength casts ctx n whole

def binary (g : Grammar) (strength : Nat) (casts : Bool) (ctx : Context) : Parse Pieces := do
  let s ← get
  operatorsFrom g s.token.start strength casts ctx s.bound (← g (.unary ctx))

/-! ## Assignments -/

/-- The marks that assign what an operator makes of the old value. -/
def updateMarks : List String :=
  ["+=", "-=", "*=", "/=", "%=", "^=", "&=", "|=", ">>=", ">>>=", "<<=", "**=", "&&=", "||=", "??="]

/-- A choice between two values. If the first one takes the colon for the type of a function, it
is read again as one that has none. -/
def choiceRest (g : Grammar) (ctx : Context) : Parse Pieces :=
  let rest := fun (consequence : Context) =>
    seq [eat "?", role "consequence" (g (.assignment consequence)), eat ":",
      role "alternative" (g (.assignment ctx))]
  rest ⟨false, ctx.plainArrow⟩ <|> rest ⟨false, true⟩

/-- An assignment that takes an array or an object apart. -/
def destructuring (g : Grammar) (ctx : Context) : Parse Pieces :=
  node "assignment_expression"
    (seq [role "left" (g .target), eat "=", role "right" (g (.assignment ctx))])

/-- An expression of all operators but the comma. -/
def conditional (g : Grammar) (ctx : Context) : Parse Pieces := do
  let start := (← current).start
  let left ← g (.binary 0 true ctx)
  if ← isNext "?" then
    nodeFrom start "ternary_expression"
      (left.map (Piece.inRole "condition") ++ (← choiceRest g ctx))
  else if ← isNext "=" then
    nodeFrom start "assignment_expression"
      (left.map (Piece.inRole "left") ++ (← initializer g "right" ctx))
  else if ← isNextOf updateMarks then
    nodeFrom start "augmented_assignment_expression"
      (left.map (Piece.inRole "left") ++ (← seq [role "operator" take,
        role "right" (g (.assignment ctx))]))
  else return left

def startsExpression (t : Token) : Bool :=
  match t.kind with
  | .name => !(["in", "of", "instanceof", "as", "satisfies"].contains t.text)
  | .mark =>
    ["(", "[", "\x7b", "`", "/", "/=", "<", "@", "!", "~", "-", "+", "++", "--", "*"].contains
      t.text
  | .stop => false
  | .stray => false
  | _ => true

/-- A value that a generator hands out. -/
def yieldExpression (g : Grammar) (ctx : Context) : Parse Pieces :=
  node "yield_expression" (seq [eat "yield", do
    if (← sameLine) && startsExpression (← current) then
      seq [eatIf "*", g (.assignment ctx)]
    else return []])

/-- An expression that is no list of expressions. -/
def assignment (g : Grammar) (ctx : Context) : Parse Pieces := do
  if ← isNext "yield" then yieldExpression g ctx
  else if ← isNextOf ["[", "\x7b"] then
    if ← closesBefore ["="] then destructuring g ctx <|> conditional g ctx
    else conditional g ctx <|> destructuring g ctx
  else conditional g ctx

/-- Expressions with commas between them; a single one stands for itself. -/
def expressions (g : Grammar) (ctx : Context) : Parse Pieces := do
  let start := (← current).start
  let first ← g (.assignment ctx)
  if ← isNext "," then
    let more ← whileTrue (isNext ",") (seq [take, g (.assignment ctx)])
    nodeFrom start "sequence_expression" (first ++ more)
  else return first

end DocCheck.Script
