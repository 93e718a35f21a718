import DocCheck.Script.Parse

/-!
# Types in source text

No function stands inside a type, so types are only passed over: a type becomes
one node without parts, or none.
-/
namespace DocCheck.Script

/-! ## Brackets -/

/-- The place behind the backtick that closes a template, braces inside it not counting. -/
def templateStop : Nat → Nat → Cursor → Option Cursor
  | 0, _, _ => none
  | n + 1, depth, c =>
    match c.rest with
    | [] => none
    | '\\' :: _ => templateStop n depth (c.skip 2)
    | '$' :: '{' :: _ => templateStop n (depth + 1) (c.skip 2)
    | '{' :: _ => templateStop n (if depth = 0 then 0 else depth + 1) c.next
    | '}' :: _ => templateStop n (depth - 1) c.next
    | '`' :: _ => if depth = 0 then some c.next else templateStop n depth c.next
    | _ => templateStop n depth c.next

def passTemplate : Parse Unit := do
  let s ← get
  match templateStop s.bound 0 s.token.stop with
  | some c => jump c
  | none => failure

/-- Goes past tokens until all brackets are closed; `depth` are open. -/
def passBracketsFrom : Nat → Nat → Parse Unit
  | 0, _ => failure
  | n + 1, depth => do
    let t ← current
    require (t.kind ≠ .stop)
    if ["(", "[", "\x7b"].any t.isText then
      advance
      passBracketsFrom n (depth + 1)
    else if [")", "]", "\x7d"].any t.isText then
      advance
      if depth ≤ 1 then pure () else passBracketsFrom n (depth - 1)
    else if t.isText "`" then
      passTemplate
      passBracketsFrom n depth
    else
      advance
      passBracketsFrom n depth

/-- Goes past a bracket and all up to the one that closes it. -/
def passBrackets : Parse Unit := do
  passBracketsFrom (← get).bound 0

/-- Goes past one angle bracket, which may be the first part of a longer mark. -/
def passAngle (angle : Char) : Parse Unit := do
  let t ← current
  require (t.kind = .mark && t.text.toList.head? == some angle)
  jump t.start.next

/-- Repeats a reader behind every comma. -/
def passCommas (p : Parse Unit) : Parse Unit := do
  let _ ← whileTrue (isNext ",") (do advance; p; return [])

/-- The token before and the next one are on one line. -/
def sameLine : Parse Bool := return !(← current).newlineBefore

/-! ## Types -/

/-- The types that a name is applied to. -/
def passTypeArguments (g : Grammar) : Parse Unit := do
  passAngle '<'
  let _ ← g .type
  passCommas (do
    if (← current).text.toList.head? == some '>' then pure () else let _ ← g .type)
  passAngle '>'

/-- The parameters of a generic declaration. -/
def passTypeParameters (g : Grammar) : Parse Unit := do
  let one : Parse Unit := do
    let _ ← whileTrue
      (return (← isNextOf ["const", "in", "out"]) && (← following).kind == .name) take
    require ((← current).kind = .name)
    advance
    if ← isNext "extends" then
      advance
      let _ ← g .type
    if ← isNext "=" then
      advance
      let _ ← g .type
  passAngle '<'
  one
  passCommas (do if (← current).text.toList.head? == some '>' then pure () else one)
  passAngle '>'

/-- Goes past the further parts of a dotted name. -/
def passDots : Parse Unit := do
  let _ ← whileTrue (isNext ".") (do advance; require ((← current).kind = .name); take)

/-- Goes past the types behind a name, if it is applied to some. -/
def passArgumentsIfAny (g : Grammar) : Parse Unit := do
  if (← isNext "<") && (← sameLine) then passTypeArguments g

/-- A type without anything in front of it or behind it. -/
def passPrimaryType (g : Grammar) : Parse Unit := do
  let t ← current
  match t.kind with
  | .number => advance
  | .string => advance
  | .mark =>
    if ["(", "[", "\x7b"].any t.isText then passBrackets
    else if t.isText "`" then passTemplate
    else if t.isText "-" then do advance; require ((← current).kind = .number); advance
    else failure
  | .name =>
    if t.isText "typeof" then
      advance
      if ← isNext "import" then
        advance
        passBrackets
      else advance
      passDots
      passArgumentsIfAny g
    else if t.isText "import" then
      advance
      passBrackets
      passDots
      passArgumentsIfAny g
    else
      advance
      passDots
      passArgumentsIfAny g
  | _ => failure

/-- The words that may stand in front of a type. -/
def typeOperators : List String := ["keyof", "unique", "readonly", "infer", "asserts"]

def startsType (t : Token) : Bool :=
  t.kind == .name || t.kind == .string || t.kind == .number ||
    (t.kind == .mark && ["(", "[", "\x7b", "`", "-"].contains t.text)

/-- A type with the words in front of it and the brackets behind it. -/
def passUnaryType (g : Grammar) : Parse Unit := do
  let words ← whileTrue
    (do
      let t ← following
      return (← isNextOf typeOperators) && startsType t && !t.newlineBefore && t.text != "is")
    take
  passPrimaryType g
  let _ ← whileTrue (return (← isNext "[") && (← sameLine)) (do passBrackets; return [])
  -- a type that is inferred may be bounded by another one
  if words.any (fun p => p.kind == "infer") && (← isNext "extends") && (← sameLine) then
    advance
    let _ ← g .type
  if (← isNext "is") && (← sameLine) then
    advance
    let _ ← g .type

/-- Types with bars or ampersands between them. -/
def passUnionType (g : Grammar) : Parse Unit := do
  if ← isNextOf ["|", "&"] then advance
  passUnaryType g
  let _ ← whileTrue (isNextOf ["|", "&"]) (do advance; passUnaryType g; return [])

/-- The result of a function type, behind its parameters. -/
def passArrowType (g : Grammar) : Parse Unit := do
  pass "=>"
  let _ ← g .type

def passType (g : Grammar) : Parse Unit := do
  if (← isNext "abstract") && (← following).isText "new" then advance
  if ← isNext "new" then
    advance
    if ← isNext "<" then passTypeParameters g
    passBrackets
    passArrowType g
  else if ← isNext "<" then
    passTypeParameters g
    passBrackets
    passArrowType g
  else
    let arrow ← attempt (do
      require (← isNext "(")
      passBrackets
      passArrowType g)
    if arrow.isNone then
      passUnionType g
      if (← isNext "extends") && (← sameLine) then
        advance
        passUnionType g
        pass "?"
        let _ ← g .type
        pass ":"
        let _ ← g .type

/-! ## Types as nodes -/

/-- The types that a name is applied to, as a node. -/
def typeArguments (g : Grammar) : Parse Pieces := plainNode "type_arguments" (passTypeArguments g)

/-- The parameters of a generic declaration, as a node; they may be left out. -/
def typeParameters (g : Grammar) : Parse Pieces :=
  ifNext "<" (role "type_parameters" (plainNode "type_parameters" (passTypeParameters g)))

/-- A colon and a type, as a node; they may be left out. -/
def declaredType (g : Grammar) : Parse Pieces :=
  ifNext ":" (plainNode "type_annotation" (do
    pass ":"
    let _ ← g .type))

end DocCheck.Script
