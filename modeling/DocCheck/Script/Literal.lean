import DocCheck.Script.Class

/-!
# Literals

Templates, regular expressions, arrays and objects. The text of a template is
covered by pieces, so that nothing in it is taken for a comment.
-/
namespace DocCheck.Script

/-! ## Templates -/

/-- The place where the text of a template ends: at a backtick or at a substitution. -/
def templateTextStop : Nat → Cursor → Cursor
  | 0, c => c
  | n + 1, c =>
    match c.rest with
    | [] => c
    | '`' :: _ => c
    | '$' :: '{' :: _ => c
    | '\\' :: _ => templateTextStop n (c.skip 2)
    | _ => templateTextStop n c.next

/-- A mark of several characters at a place, which is read on from behind it. -/
def markAt (c : Cursor) (text : String) : Parse Pieces := do
  require (text.toList.isPrefixOf c.rest)
  let stop := c.skip text.length
  jump stop
  return [.mk text false none c stop []]

def substitution (g : Grammar) (start : Cursor) : Parse Pieces := do
  let parts ← seq [markAt start "$\x7b", g (.expressions .any), eat "\x7d"]
  nodeFrom start "template_substitution" parts

def templateRest (g : Grammar) : Nat → Cursor → Parse Pieces
  | 0, _ => failure
  | n + 1, c => do
    let stop := templateTextStop (← get).bound c
    let text : Pieces :=
      if c.offset < stop.offset then [.mk "string_fragment" true none c stop []] else []
    if stop.rest.head? == some '`' then return text ++ (← markAt stop "`")
    else
      let inner ← substitution g stop
      return text ++ inner ++ (← templateRest g n (← get).last)

def template (g : Grammar) : Parse Pieces := do
  let s ← get
  let start := s.token.start
  let opening ← markAt start "`"
  nodeFrom start "template_string" (opening ++ (← templateRest g s.bound start.next))

/-! ## Regular expressions -/

def regexLength? (inClass : Bool) : List Char → Option Nat
  | [] => none
  | '\\' :: d :: r => if d = '\n' then none else (regexLength? inClass r).map (· + 2)
  | c :: r =>
    if c = '\n' then none
    else if c = '/' && !inClass then some 1
    else
      (regexLength? (if c = '[' then true else if c = ']' then false else inClass) r).map (· + 1)

def regex : Parse Pieces := do
  let start := (← current).start
  let body := start.next
  match regexLength? false body.rest with
  | none => failure
  | some n =>
    let stop := (body.skip n).skipWhile Char.isAlpha
    jump stop
    return [.mk "regex" true none start stop []]

/-! ## Arrays and objects -/

def spread (g : Grammar) : Parse Pieces :=
  node "spread_element" (seq [eat "...", g (.assignment .any)])

def spreadOrExpression (g : Grammar) : Parse Pieces := do
  if ← isNext "..." then spread g else g (.assignment .any)

def array (g : Grammar) : Parse Pieces := node "array" (bracketed "[" "]" (spreadOrExpression g))

def property (g : Grammar) : Parse Pieces := do
  if ← isNext "..." then spread g
  else
    let start := (← current).start
    let words ← modifiers
    let t ← following
    if words.isEmpty && (← current).isIdentifier && (t.isText "," || t.isText "\x7d") then
      leaf "shorthand_property_identifier" true
    else
      let name ← propertyName g
      if words.isEmpty && (← isNext ":") then
        nodeFrom start "pair" (name.map (Piece.inRole "key") ++ (← seq [take,
          role "value" (g (.assignment .any))]))
      else methodRest g start (words ++ name.map (Piece.inRole "name") ++ (← eatIf "?"))

def object (g : Grammar) : Parse Pieces := node "object" (bracketed "\x7b" "\x7d" (property g))

def arguments (g : Grammar) : Parse Pieces :=
  node "arguments" (bracketed "(" ")" (spreadOrExpression g))

end DocCheck.Script
