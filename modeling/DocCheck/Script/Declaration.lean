import DocCheck.Script.Function
import DocCheck.Script.Literal

/-!
# Declarations

Variables, functions, classes, and the declarations that concern types only.
-/
namespace DocCheck.Script

/-! ## Variables -/

/-- A variable with its type and its first value. -/
def declarator (g : Grammar) (ctx : Context) : Parse Pieces :=
  node "variable_declarator"
    (seq [role "name" (binding g), eatIf "!", role "type" (declaredType g),
      ifNext "=" (initializer g "value" ctx)])

def variableList (g : Grammar) (ctx : Context) : Parse Pieces := do
  let declarators := commaSeparated (declarator g ctx)
  if ← isNext "var" then node "variable_declaration" (seq [take, declarators, semicolon])
  else
    require (← isNextOf ["let", "const"])
    let t ← following
    require (t.isIdentifier || t.isText "[" || t.isText "\x7b")
    node "lexical_declaration" (seq [role "kind" take, declarators, semicolon])

/-! ## Functions and classes -/

/-- A function that has a name; one without a body declares its types only. -/
def functionDeclaration (g : Grammar) : Parse Pieces := do
  let start := (← current).start
  let head ← functionHead g
  require (head.any fun p => p.kind == "identifier")
  if ← isNext "\x7b" then
    let body ← functionBody g
    let _ ← looseEnd
    nodeFrom start
      (if isGenerator head then "generator_function_declaration" else "function_declaration")
      (head ++ body)
  else nodeFrom start "function_signature" (head ++ (← semicolon))

/-- A class that has a name; `start` is the place of its decorators, which come before. -/
def classDeclaration (g : Grammar) (start : Cursor) (before : Pieces) : Parse Pieces := do
  if ← isNext "abstract" then
    nodeFrom start "abstract_class_declaration" (before ++ (← seq [take, classRest g]))
  else
    let parts ← classRest g
    require (parts.any fun p => p.kind == "type_identifier")
    let _ ← looseEnd
    nodeFrom start "class_declaration" (before ++ parts)

/-! ## Types -/

def enumeration (g : Grammar) : Parse Pieces := do
  let member : Parse Pieces := do
    let start := (← current).start
    let name ← role "name" (propertyName g)
    if ← isNext "=" then
      nodeFrom start "enum_assignment" (name ++ (← initializer g "value" .any))
    else return name
  node "enum_declaration"
    (seq [eatIf "const", eat "enum", role "name" (identifier "identifier"),
      role "body" (node "enum_body" (bracketed "\x7b" "\x7d" member))])

def interfaceDeclaration (g : Grammar) : Parse Pieces :=
  plainNode "interface_declaration" (do
    pass "interface"
    require (← current).isIdentifier
    advance
    if ← isNext "<" then passTypeParameters g
    if ← isNext "extends" then
      advance
      let _ ← g .type
      passCommas (do let _ ← g .type)
    require (← isNext "\x7b")
    passBrackets)

def typeAlias (g : Grammar) : Parse Pieces :=
  plainNode "type_alias_declaration" (do
    pass "type"
    require (← current).isIdentifier
    advance
    if ← isNext "<" then passTypeParameters g
    pass "="
    let _ ← g .type
    let _ ← semicolon)

/-- A named group of declarations. -/
def namespaceDeclaration (g : Grammar) : Parse Pieces := do
  require (← isNextOf ["namespace", "module"])
  let kind := if ← isNext "module" then "module" else "internal_module"
  let name : Parse Pieces := do
    if (← current).kind = .string then leaf "string" true
    else
      plainNode "nested_identifier" (do
        require (← current).isIdentifier
        advance
        passDots)
  node kind (seq [take, role "name" name, ifNext "\x7b" (functionBody g)])

/-! ## All of them -/

/-- A declaration that is not preceded by `export`. -/
def declaration (g : Grammar) : Parse Pieces := do
  let t ← current
  let next ← following
  let named := next.kind == .name && !next.newlineBefore
  if t.isText "@" then
    let before ← decorators g
    classDeclaration g t.start before
  else if t.isText "function" || (t.isText "async" && next.isText "function") then
    functionDeclaration g
  else if t.isText "class" then classDeclaration g t.start []
  else if t.isText "enum" || (t.isText "const" && next.isText "enum") then enumeration g
  else if t.isText "var" || t.isText "let" || t.isText "const" then variableList g .any
  else if t.isText "abstract" && next.isText "class" then classDeclaration g t.start []
  else if t.isText "interface" && named then interfaceDeclaration g
  else if t.isText "type" && named then typeAlias g
  else if t.isText "module" && !next.newlineBefore then
    let found ← namespaceDeclaration g
    let _ ← ifNext ";" semicolon
    return found
  else if t.isText "namespace" && named then namespaceDeclaration g
  else failure

/-- A declaration of what is defined elsewhere. -/
def ambientDeclaration (g : Grammar) : Parse Pieces :=
  node "ambient_declaration"
    (seq [eat "declare", do
      require (← sameLine)
      if ← isNext "global" then seq [take, functionBody g] else declaration g])

end DocCheck.Script
