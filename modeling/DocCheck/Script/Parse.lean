import DocCheck.Script.Piece
import DocCheck.Script.Token

/-!
# Reading source text

A reader takes tokens from the state and gives back pieces of the tree; one that
fails leaves it to others to try again from the same state. The grammar is
written as readers that are given a reader for all goals, `Grammar`, and the
knot is tied once by a bound on the depth (`Script/Program`).
-/
namespace DocCheck.Script

/-- How far the text has been read. -/
structure State where
  /-- The next token. -/
  token : Token
  /-- The end of what was read last. -/
  last : Cursor
  /-- More than the number of characters: no loop runs longer. -/
  bound : Nat
  /-- Angle brackets may be elements. -/
  elements : Bool

/-- A reader: fails, or gives back a value and the state behind it. -/
abbrev Parse := StateT State Option

/-- Nodes that stand next to each other. -/
abbrev Pieces := List Piece

/-- What an expression may contain. -/
structure Context where
  /-- The word `in` is no operator. -/
  noIn : Bool
  /-- Parameters of an arrow function are not followed by a type. -/
  plainArrow : Bool

/-- Nothing is excluded. -/
def Context.any : Context := ⟨false, false⟩

/-- The parts of the grammar that refer to each other. -/
inductive Goal where
  | statement
  | block
  /-- Expressions between commas. -/
  | expressions (ctx : Context)
  | assignment (ctx : Context)
  /-- An expression of operators that bind at least as strongly as a given strength. Casts of the
  whole expression may follow unless they belong to what it is an operand of. -/
  | binary (strength : Nat) (casts : Bool) (ctx : Context)
  | unary (ctx : Context)
  /-- An expression that may stand on the left of an assignment. -/
  | leftHand
  | construct
  /-- What a declaration binds. -/
  | binding
  /-- What an assignment takes apart. -/
  | target
  /-- A type; no pieces come of it. -/
  | type
  | element

abbrev Grammar := Goal → Parse Pieces

/-! ## Tokens -/

def current : Parse Token := return (← get).token

def following : Parse Token := return Token.after (← get).token.stop

def Token.isText (t : Token) (text : String) : Bool :=
  (t.kind == .name || t.kind == .mark) && t.text == text

def isNext (text : String) : Parse Bool := return (← current).isText text

def isNextOf (texts : List String) : Parse Bool := return texts.any (← current).isText

def jump (c : Cursor) : Parse Unit :=
  modify fun s => { s with last := c, token := Token.after c }

def advance : Parse Unit := do jump (← current).stop

def require (b : Bool) : Parse Unit := if b then pure () else failure

/-! ## Pieces -/

/-- The next token as a node without parts. -/
def leaf (kind : String) (named : Bool) : Parse Pieces := do
  let t ← current
  advance
  return [.mk kind named none t.start t.stop []]

/-- The next token as a keyword or mark. -/
def take : Parse Pieces := do leaf (← current).text false

def eat (text : String) : Parse Pieces := do
  if ← isNext text then take else failure

/-- Goes past a given keyword or mark. -/
def pass (text : String) : Parse Unit := do
  if ← isNext text then advance else failure

def eatIf (text : String) : Parse Pieces := do
  if ← isNext text then take else return []

/-- What some readers give back, one after another. -/
def seq : List (Parse Pieces) → Parse Pieces
  | [] => return []
  | p :: ps => do return (← p) ++ (← seq ps)

/-- What a reader gives back if the next token is spelled so. -/
def ifNext (text : String) (p : Parse Pieces) : Parse Pieces := do
  if ← isNext text then p else return []

/-- What a reader gives back, or nothing if it fails. -/
def attempt {α : Type} (p : Parse α) : Parse (Option α) := fun s =>
  match p s with
  | some (a, s') => some (some a, s')
  | none => some (none, s)

/-- The node of some pieces, from a given place on. -/
def nodeFrom (start : Cursor) (kind : String) (children : Pieces) : Parse Pieces := do
  return [.mk kind true none start (← get).last children]

def node (kind : String) (p : Parse Pieces) : Parse Pieces := do
  let start := (← current).start
  nodeFrom start kind (← p)

/-- A node whose parts are of no interest. -/
def plainNode (kind : String) (p : Parse Unit) : Parse Pieces :=
  node kind (do p; return [])

def role (name : String) (p : Parse Pieces) : Parse Pieces :=
  return (← p).map (Piece.inRole name)

/-- What a reader would give back from here on; nothing is read. -/
def lookahead {α : Type} (p : Parse α) : Parse (Option α) := fun s => some ((p s).map Prod.fst, s)

/-! ## Repetition -/

/-- What a reader gives back as long as a condition holds before it. -/
def whileTrueFrom (condition : Parse Bool) (p : Parse Pieces) : Nat → Parse Pieces
  | 0 => failure
  | n + 1 => do
    if ← condition then return (← p) ++ (← whileTrueFrom condition p n) else return []

/-- What a reader gives back as long as a condition holds before it. -/
def whileTrue (condition : Parse Bool) (p : Parse Pieces) : Parse Pieces := do
  whileTrueFrom condition p (← get).bound

def untilNext (text : String) (p : Parse Pieces) : Parse Pieces :=
  whileTrue (return !(← isNext text)) p

/-- Items with commas between them, up to a closing mark. Items may be left out. -/
def itemsFrom (closer : String) (item : Parse Pieces) : Nat → Parse Pieces
  | 0 => failure
  | n + 1 => do
    if ← isNext closer then return []
    else if ← isNext "," then return (← take) ++ (← itemsFrom closer item n)
    else
      let x ← item
      require (← isNextOf [",", closer])
      return x ++ (← itemsFrom closer item n)

/-- Items between an opening and a closing mark, with commas between them. -/
def bracketed (opener closer : String) (item : Parse Pieces) : Parse Pieces := do
  let bound := (← get).bound
  seq [eat opener, itemsFrom closer item bound, eat closer]

def commaSeparated (item : Parse Pieces) : Parse Pieces := do
  return (← item) ++ (← whileTrue (isNext ",") (seq [eat ",", item]))

/-! ## The end of a statement

A semicolon may be left out before a closing brace, at the end of the text, and
at the end of a line unless the next line goes on with the statement. Comments
on the same line then still belong to the statement.
-/

/-- The text goes on with the statement of the line before. -/
def continuesLine (cs : List Char) : Bool :=
  match cs with
  | '+' :: d => d.head? != some '+'
  | '-' :: d => d.head? != some '-'
  | '!' :: d => d.head? == some '='
  | 'i' :: 'n' :: d =>
    if "stanceof".toList.isPrefixOf d then !((d.drop 8).head?.any Char.isAlpha)
    else !(d.head?.any Char.isAlpha)
  | c :: _ => "`,.;*%><=?^|&/:".toList.contains c
  | [] => false

/-- The end of a statement whose semicolon is left out behind a place; `none` if it must not be
left out there. -/
def impliedEnd : Nat → Cursor → Option Cursor
  | 0, _ => none
  | n + 1, c =>
    let c' := c.skipWhile fun d => isSpace d && d != '\n'
    match c'.rest with
    | [] => some c
    | '}' :: _ => some c
    | '\n' :: _ => if continuesLine (skipTrivia c').rest then none else some c
    | _ =>
      match commentLength? c'.rest with
      | some length => impliedEnd n (c'.skip length)
      | none => none

/-- Takes the end of a statement to be where its semicolon is left out, if it may be. -/
def tryImpliedEnd : Parse Bool := do
  let s ← get
  match impliedEnd s.bound s.last with
  | some c => set { s with last := c }; return true
  | none => return false

/-- A semicolon, which may be left out where a line ends. -/
def semicolon : Parse Pieces := do
  if ← isNext ";" then take
  else
    require (← tryImpliedEnd)
    return []

/-- The end of what needs no semicolon, with the comments on the same line. -/
def looseEnd : Parse Pieces := do
  let _ ← tryImpliedEnd
  return []

end DocCheck.Script
