import DocCheck.TypeExpr.Basic
import DocCheck.TypeExpr.Token

/-!
# Reading type expressions

The grammar (SPEC_FULL 4.1, TypeExpressionParser), from the loosest part to the
tightest:

* a type list is one or more members between bars;
* a member is a unary type with an optional `=` behind it, or `...` with an
  optional unary type;
* a unary type has any number of `?` and `!` in front of a suffixed type; a `?`
  with nothing behind it is the unknown type;
* a suffixed type has any number of `[]` behind a primary type;
* a primary type is a type list in parentheses, a record, the all-type `*`, a
  function type, or a dotted name that may be applied to type lists.

Each reader takes the tokens before it and gives back those behind it. Its
first argument bounds the depth of the calls: a call uses up a token or goes to
a tighter part of the grammar, so eight levels a token are enough (`depth`).

Limitations: brackets may nest to any depth; a stack that runs out is not modelled.
-/
namespace DocCheck.TypeExpr

/-! ## Names and small pieces -/

/-- The primitive types, each of which is also known under its capitalised name. -/
def primitives : List String :=
  ["boolean", "Boolean", "number", "Number", "string", "String", "undefined", "Undefined",
    "null", "Null"]

/-- The type that a name stands for. -/
def ofName (name : String) : TypeExpr :=
  if name ∈ primitives then .native name else .reference name

/-- A list of one member is that member, a longer one a union. -/
def ofMembers (first : TypeExpr) (more : List TypeExpr) : TypeExpr :=
  if more.isEmpty then first else .union (first :: more)

/-- A name applied to types. -/
def ofArguments (base : String) (first : TypeExpr) (more : List TypeExpr) : TypeExpr :=
  if base = "Array" ∧ more = [] then .arrayOf first else .generic base (first :: more)

/-- Puts an array around a type for each `[]` that follows. -/
def arraySuffixes (t : TypeExpr) : List Token → TypeExpr × List Token
  | .mark .brackets :: ts => arraySuffixes (.arrayOf t) ts
  | ts => (t, ts)

def dottedRest : List Token → List String × List Token
  | .mark .dot :: .ident part :: ts =>
    let (parts, rest) := dottedRest ts
    (part :: parts, rest)
  | ts => ([], ts)

def dottedName : List Token → Option (String × List Token)
  | .ident first :: ts =>
    let (parts, rest) := dottedRest ts
    some (".".intercalate (first :: parts), rest)
  | _ => none

/-- A `?` or `...` with nothing behind it may stand before these tokens and at the end. -/
def mayFollowBare : List Token → Bool
  | [] => true
  | .ident _ :: _ => false
  | .mark m :: _ =>
    m ∈ [.bar, .comma, .greater, .closeParen, .closeBrace, .equals, .colon]

def expect (m : Mark) : List Token → Option (List Token)
  | .mark m' :: ts => if m' = m then some ts else none
  | _ => none

/-! ## The grammar -/

mutual

/-- One or more members between bars. -/
def typeList : Nat → List Token → Option (TypeExpr × List Token)
  | 0, _ => none
  | n + 1, ts => do
    let (first, ts) ← member n ts
    let (more, ts) ← moreMembers n ts
    some (ofMembers first more, ts)

def moreMembers : Nat → List Token → Option (List TypeExpr × List Token)
  | 0, _ => none
  | n + 1, .mark .bar :: ts => do
    let (t, ts) ← member n ts
    let (more, ts) ← moreMembers n ts
    some (t :: more, ts)
  | _ + 1, ts => some ([], ts)

/-- A unary type that may be marked as optional, or any number of values of a type. -/
def member : Nat → List Token → Option (TypeExpr × List Token)
  | 0, _ => none
  | n + 1, .mark .ellipsis :: ts =>
    if mayFollowBare ts then some (.arrayOf (.native "*"), ts)
    else do
      let (t, ts) ← unary n ts
      some (.arrayOf t, ts)
  | n + 1, ts => do
    match ← unary n ts with
    | (t, .mark .equals :: ts) => some (.optional t, ts)
    | (t, ts) => some (t, ts)

/-- A suffixed type behind any number of `?` and `!`. -/
def unary : Nat → List Token → Option (TypeExpr × List Token)
  | 0, _ => none
  | n + 1, .mark .question :: ts =>
    if mayFollowBare ts then some (.native "?", ts)
    else do
      let (t, ts) ← unary n ts
      some (.nullable t, ts)
  | n + 1, .mark .bang :: ts => do
    let (t, ts) ← unary n ts
    some (.nonNullable t, ts)
  | n + 1, ts => do
    let (t, ts) ← primary n ts
    some (arraySuffixes t ts)

/-- A type without anything in front of it or behind it. -/
def primary : Nat → List Token → Option (TypeExpr × List Token)
  | 0, _ => none
  | n + 1, .mark .openParen :: ts => do
    let (t, ts) ← typeList n ts
    let ts ← expect .closeParen ts
    some (t, ts)
  | _ + 1, .mark .openBrace :: .mark .closeBrace :: ts => some (.record [], ts)
  | n + 1, .mark .openBrace :: ts => do
    let (first, ts) ← field n ts
    let (more, ts) ← moreFields n ts
    let ts ← expect .closeBrace ts
    some (.record (first :: more), ts)
  | _ + 1, .mark .star :: ts => some (.native "*", ts)
  | n + 1, .ident "function" :: .mark .openParen :: ts => do
    let (params, ts) ← paramList n ts
    match ts with
    | .mark .colon :: ts =>
      let (t, ts) ← member n ts
      some (.function params (some t), ts)
    | ts => some (.function params none, ts)
  | n + 1, ts => do
    let (name, ts) ← dottedName ts
    match ts with
    | .mark .less :: ts => typeArguments n name ts
    | .mark .dotLess :: ts => typeArguments n name ts
    | ts => some (ofName name, ts)

/-- The types that a name is applied to, behind the opening angle. -/
def typeArguments : Nat → String → List Token → Option (TypeExpr × List Token)
  | 0, _, _ => none
  | n + 1, base, ts => do
    let (first, ts) ← typeList n ts
    let (more, ts) ← moreArguments n ts
    let ts ← expect .greater ts
    some (ofArguments base first more, ts)

def moreArguments : Nat → List Token → Option (List TypeExpr × List Token)
  | 0, _ => none
  | n + 1, .mark .comma :: ts => do
    let (t, ts) ← typeList n ts
    let (more, ts) ← moreArguments n ts
    some (t :: more, ts)
  | _ + 1, ts => some ([], ts)

/-- The parameters of a function type with the closing parenthesis. -/
def paramList : Nat → List Token → Option (List (Option String × TypeExpr) × List Token)
  | 0, _ => none
  | _ + 1, .mark .closeParen :: ts => some ([], ts)
  | n + 1, ts => do
    let (first, ts) ← param n ts
    let (more, ts) ← moreParams n ts
    let ts ← expect .closeParen ts
    some (first :: more, ts)

def moreParams : Nat → List Token → Option (List (Option String × TypeExpr) × List Token)
  | 0, _ => none
  | n + 1, .mark .comma :: ts => do
    let (p, ts) ← param n ts
    let (more, ts) ← moreParams n ts
    some (p :: more, ts)
  | _ + 1, ts => some ([], ts)

/-- A parameter of a function type; `this` and `new` are names like any other. -/
def param : Nat → List Token → Option ((Option String × TypeExpr) × List Token)
  | 0, _ => none
  | n + 1, .ident name :: .mark .colon :: ts => do
    let (t, ts) ← typeList n ts
    some ((some name, t), ts)
  | n + 1, ts => do
    let (t, ts) ← typeList n ts
    some ((none, t), ts)

def field : Nat → List Token → Option ((String × TypeExpr) × List Token)
  | 0, _ => none
  | n + 1, .ident name :: .mark .colon :: ts => do
    let (t, ts) ← typeList n ts
    some ((name, t), ts)
  | _ + 1, _ => none

def moreFields : Nat → List Token → Option (List (String × TypeExpr) × List Token)
  | 0, _ => none
  | n + 1, .mark .comma :: ts => do
    let (f, ts) ← field n ts
    let (more, ts) ← moreFields n ts
    some (f :: more, ts)
  | _ + 1, ts => some ([], ts)

end

/-! ## Whole texts -/

/-- A depth of calls that is enough for the tokens. -/
def depth (ts : List Token) : Nat := 8 * ts.length + 8

/-- Reads tokens that make up one type list, none left over. -/
def ofTokens? (ts : List Token) : Option TypeExpr :=
  match typeList (depth ts) ts with
  | some (t, []) => some t
  | _ => none

/-- Reads a text that makes up one type list. -/
def ofText? (cs : List Char) : Option TypeExpr := (tokenize cs).bind ofTokens?

/-- The text inside a pair of braces around the whole text. -/
def unbraced? : List Char → Option (List Char)
  | '{' :: r => if r.getLast? = some '}' then some r.dropLast else none
  | _ => none

/-- Reads a type. An opening brace is first taken for a record; when that fails, braces
around the whole text are taken for delimiters. A text that cannot be read is kept as it is. -/
def parse (text : String) : TypeExpr :=
  let body := Text.trim text.toList
  match ofText? body with
  | some t => t
  | none =>
    match (unbraced? body).bind ofText? with
    | some t => t
    | none => .unknown text

end DocCheck.TypeExpr
