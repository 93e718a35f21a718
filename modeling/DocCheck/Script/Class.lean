import DocCheck.Script.Pattern

/-!
# Classes and methods
-/
namespace DocCheck.Script

def functionBody (g : Grammar) : Parse Pieces := role "body" (g .block)

/-! ## Members -/

def memberModifiers : List String :=
  ["static", "async", "get", "set", "public", "private", "protected", "override", "readonly",
    "abstract", "declare", "accessor"]

/-- Behind these a word is the name of a member and no modifier. -/
def endsMemberName (t : Token) : Bool :=
  t.kind == .stop || ["(", "<", "=", ";", ",", "\x7d", "?", "!", ":"].any t.isText

/-- The words in front of a member, with the star of a generator. -/
def modifiers : Parse Pieces :=
  whileTrue
    (return (← isNext "*") ||
      ((← isNextOf memberModifiers) && !endsMemberName (← following)))
    take

/-- A method from its parameters on; `before` are its modifiers and its name. -/
def methodRest (g : Grammar) (start : Cursor) (before : Pieces) : Parse Pieces := do
  let head ← signature g false
  if ← isNext "\x7b" then
    let body ← functionBody g
    nodeFrom start "method_definition" (before ++ head ++ body)
  else
    let isAbstract := before.any fun p => p.kind == "abstract"
    nodeFrom start (if isAbstract then "abstract_method_signature" else "method_signature")
      (before ++ head)

/-- A signature for all names of a kind. -/
def indexSignature (g : Grammar) : Parse Pieces :=
  plainNode "index_signature" (do
    let _ ← modifiers
    require (← isNext "[")
    require ((← following).kind = .name)
    passBrackets
    require (← isNext ":")
    let _ ← declaredType g)

/-- A method or field. Decorators are parts of a field, but stand before a method. -/
def methodOrField (g : Grammar) : Parse Pieces := do
  let start := (← current).start
  let before ← decorators g
  let memberStart := (← current).start
  let words ← modifiers
  let name ← role "name" (propertyName g)
  let mark ← if ← isNextOf ["?", "!"] then take else pure []
  if ← isNextOf ["(", "<"] then
    return before ++ (← methodRest g memberStart (words ++ name ++ mark))
  else
    let rest ← seq [role "type" (declaredType g), ifNext "=" (initializer g "value" .any)]
    nodeFrom start "public_field_definition" (before ++ words ++ name ++ mark ++ rest)

/-- One member of a class, or a semicolon between members. -/
def classMember (g : Grammar) : Parse Pieces := do
  if ← isNextOf [";", ","] then take
  else if (← isNext "static") && (← following).isText "\x7b" then
    node "class_static_block" (seq [eat "static", functionBody g])
  else indexSignature g <|> methodOrField g

def classBody (g : Grammar) : Parse Pieces :=
  node "class_body" (seq [eat "\x7b", untilNext "\x7d" (classMember g), eat "\x7d"])

/-! ## Classes -/

/-- The class that is extended, and the types that it is applied to. -/
def extendsClause (g : Grammar) : Parse Pieces :=
  node "extends_clause" (seq [eat "extends", role "value" (g .leftHand),
    ifNext "<" (typeArguments g)])

def implementsClause (g : Grammar) : Parse Pieces :=
  plainNode "implements_clause" (do
    pass "implements"
    let _ ← g .type
    passCommas (do let _ ← g .type))

def heritage (g : Grammar) : Parse Pieces := do
  if ← isNextOf ["extends", "implements"] then
    node "class_heritage"
      (seq [ifNext "extends" (extendsClause g), ifNext "implements" (implementsClause g)])
  else return []

/-- The name of a class, which may be left out. -/
def className : Parse Pieces := do
  if (← current).isIdentifier && !(← isNext "implements") then
    role "name" (leaf "type_identifier" true)
  else return []

def classRest (g : Grammar) : Parse Pieces :=
  seq [eat "class", className, typeParameters g, heritage g, role "body" (classBody g)]

end DocCheck.Script
