import DocCheck.Tree.Basic
import DocCheck.ValueKind

/-!
# Kinds of expressions

The kinds of values that an expression may have, as far as its form tells. An
expression that tells nothing has the unknown kind (SPEC_FULL 3, ReturnSummary).
-/
namespace DocCheck.Node

/-- The kind of a literal, and of what is written like one. -/
def literalKind? : String → Option ValueKind
  | "string" => some .string
  | "template_string" => some .string
  | "number" => some .number
  | "true" => some .boolean
  | "false" => some .boolean
  | "null" => some .null
  | "undefined" => some .undefined
  | "object" => some .object
  | "array" => some .array
  | "regex" => some .regexp
  | "function_expression" => some .function
  | "function" => some .function
  | "generator_function" => some .function
  | "arrow_function" => some .function
  | "class" => some .function
  | _ => none

/-- The kind of a value built by `new` with a constructor of this text. -/
def constructedKind : String → ValueKind
  | "Array" => .array
  | "RegExp" => .regexp
  | "Function" => .function
  | _ => .object

def unaryKind : String → ValueKind
  | "!" => .boolean
  | "delete" => .boolean
  | "typeof" => .string
  | "-" => .number
  | "+" => .number
  | "~" => .number
  | "void" => .undefined
  | _ => .unknown

def comparisonOperators : List String :=
  ["==", "!=", "===", "!==", "<", ">", "<=", ">=", "instanceof", "in"]

/-- The operators that calculate, other than the plus sign. -/
def arithmeticOperators : List String :=
  ["-", "*", "/", "%", "**", "<<", ">>", ">>>", "&", "|", "^"]

/-- The kinds of a sum. A side that is surely a string makes it one, and two sides that are
surely numbers make it a number. -/
def sumKind (left right : Option KindSet) : ValueKind :=
  let surely := fun (k : ValueKind) (side : Option KindSet) => side.any fun s => s.isSingle k
  if surely .string left || surely .string right then .string
  else if surely .number left && surely .number right then .number
  else .unknown

def binaryKind (operator : String) (left right : Option KindSet) : ValueKind :=
  if comparisonOperators.contains operator then .boolean
  else if arithmeticOperators.contains operator then .number
  else if operator = "+" then sumKind left right
  else .unknown

/-- The kind of the first node that plays a role; empty if there is none. -/
def kindOfRole (role : String) (ns : List Node) : String :=
  match ns.find? fun c => c.field == some role with
  | some c => c.kind
  | none => ""

def textOfRole (role : String) (ns : List Node) : String :=
  match ns.find? fun c => c.field == some role with
  | some c => c.text
  | none => ""

mutual

/-- The kinds of values that an expression may have. -/
def valueKinds : Node → KindSet
  | mk kind _ _ text _ _ cs =>
    match literalKind? kind with
    | some k => .single k
    | none =>
      if kind = "identifier" then .single (if text = "undefined" then .undefined else .unknown)
      else if kind = "parenthesized_expression" then (kindsOfLast cs).getD (.single .unknown)
      else if kind = "ternary_expression" then
        match kindsOfRole "consequence" cs, kindsOfRole "alternative" cs with
        | some s, some t => s.union t
        | _, _ => .single .unknown
      else if kind = "new_expression" then .single (constructedKind (textOfRole "constructor" cs))
      else if kind = "unary_expression" then .single (unaryKind (kindOfRole "operator" cs))
      else if kind = "binary_expression" then
        .single (binaryKind (kindOfRole "operator" cs) (kindsOfRole "left" cs)
          (kindsOfRole "right" cs))
      else .single .unknown

def kindsOfRole (role : String) : List Node → Option KindSet
  | [] => none
  | c :: cs => if c.field = some role then some (valueKinds c) else kindsOfRole role cs

/-- The kinds of the last node that is neither punctuation nor a comment. -/
def kindsOfLast : List Node → Option KindSet
  | [] => none
  | c :: cs =>
    match kindsOfLast cs with
    | some s => some s
    | none => if c.isPart then some (valueKinds c) else none

end

end DocCheck.Node
