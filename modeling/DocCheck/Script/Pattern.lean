import DocCheck.Script.Type

/-!
# Patterns and parameters

What declarations bind and what assignments take apart, and the parameter lists
of functions.
-/
namespace DocCheck.Script

/-- The words that are no names. -/
def reservedWords : List String :=
  ["break", "case", "catch", "class", "const", "continue", "debugger", "default", "delete", "do",
    "else", "enum", "export", "extends", "false", "finally", "for", "function", "if", "import",
    "in", "instanceof", "new", "null", "return", "super", "switch", "this", "throw", "true", "try",
    "typeof", "var", "void", "while", "with"]

def Token.isIdentifier (t : Token) : Bool := t.kind == .name && !reservedWords.contains t.text

def identifier (kind : String) : Parse Pieces := do
  require (← current).isIdentifier
  leaf kind true

/-- A name in an expression or pattern. -/
def plainIdentifier : Parse Pieces := do
  if ← isNext "undefined" then leaf "undefined" true else identifier "identifier"

/-! ## Property names -/

def propertyName (g : Grammar) : Parse Pieces := do
  let t ← current
  match t.kind with
  | .name => leaf "property_identifier" true
  | .privateName => leaf "private_property_identifier" true
  | .string => leaf "string" true
  | .number => leaf "number" true
  | _ =>
    node "computed_property_name" (seq [eat "[", g (.assignment .any), eat "]"])

/-! ## Patterns -/

def initializer (g : Grammar) (valueRole : String) (ctx : Context) : Parse Pieces :=
  seq [eat "=", role valueRole (g (.assignment ctx))]

def withDefault (g : Grammar) (pattern : Parse Pieces) : Parse Pieces := do
  let start := (← current).start
  let left ← pattern
  if ← isNext "=" then
    nodeFrom start "assignment_pattern"
      (left.map (Piece.inRole "left") ++ (← initializer g "right" .any))
  else return left

def restPattern (pattern : Parse Pieces) : Parse Pieces :=
  node "rest_pattern" (seq [eat "...", pattern])

def arrayPattern (g : Grammar) (pattern : Parse Pieces) : Parse Pieces :=
  node "array_pattern" (bracketed "[" "]" (do
    if ← isNext "..." then restPattern pattern else withDefault g pattern))

/-- A pattern for one property of an object. -/
def propertyPattern (g : Grammar) (pattern : Parse Pieces) : Parse Pieces := do
  if ← isNext "..." then restPattern pattern
  else
    let start := (← current).start
    let t ← following
    if (← current).isIdentifier && [",", "\x7d", "="].any t.isText then
      let left ← leaf "shorthand_property_identifier_pattern" true
      if ← isNext "=" then
        nodeFrom start "object_assignment_pattern"
          (left.map (Piece.inRole "left") ++ (← initializer g "right" .any))
      else return left
    else
      node "pair_pattern" (seq [role "key" (propertyName g), eat ":",
        role "value" (withDefault g pattern)])

def objectPattern (g : Grammar) (pattern : Parse Pieces) : Parse Pieces :=
  node "object_pattern" (bracketed "\x7b" "\x7d" (propertyPattern g pattern))

/-- What a declaration binds: a name or a pattern. -/
def binding (g : Grammar) : Parse Pieces := do
  if ← isNext "[" then arrayPattern g (g .binding)
  else if ← isNext "\x7b" then objectPattern g (g .binding)
  else plainIdentifier

/-- What an assignment takes apart: a pattern or what may stand on its left side. -/
def target (g : Grammar) : Parse Pieces := do
  if ← isNext "[" then arrayPattern g (g .target)
  else if ← isNext "\x7b" then objectPattern g (g .target)
  else g .leftHand

/-! ## Decorators -/

def decorator (g : Grammar) : Parse Pieces :=
  node "decorator" (seq [eat "@", g .leftHand])

def decorators (g : Grammar) : Parse Pieces :=
  whileTrue (isNext "@") (role "decorator" (decorator g))

/-! ## Parameters -/

/-- The words in front of a parameter that is a property too. -/
def parameterModifiers : List String := ["public", "private", "protected", "override", "readonly"]

/-- The token may start what a parameter binds. -/
def startsBinding (t : Token) : Bool :=
  t.isIdentifier || t.isText "\x7b" || t.isText "[" || t.isText "this"

def parameter (g : Grammar) : Parse Pieces := do
  let start := (← current).start
  let before ← decorators g
  let modifiers ← whileTrue
    (return (← isNextOf parameterModifiers) && startsBinding (← following)) take
  let pattern ←
    if ← isNext "this" then leaf "this" true
    else if ← isNext "..." then restPattern (g .binding)
    else g .binding
  let isOptional ← isNext "?"
  let rest ← seq [eatIf "?", role "type" (declaredType g),
    ifNext "=" (initializer g "value" .any)]
  nodeFrom start (if isOptional then "optional_parameter" else "required_parameter")
    (before ++ modifiers ++ pattern.map (Piece.inRole "pattern") ++ rest)

def formalParameters (g : Grammar) : Parse Pieces :=
  node "formal_parameters" (bracketed "(" ")" (parameter g))

/-- The parameters of a function, generic ones before and the type of the result behind them. -/
def signature (g : Grammar) (plain : Bool) : Parse Pieces :=
  seq [typeParameters g, role "parameters" (formalParameters g),
    if plain then pure [] else role "return_type" (declaredType g)]

end DocCheck.Script
