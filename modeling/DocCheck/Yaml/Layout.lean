import DocCheck.Yaml.Token

/-!
# From text to tokens

Indentation opens and closes blocks. A key is recognised only by the colon
behind it, so the place of every token that may start a key is kept until the
colon comes or can come no more. The reader fails on a text that is not
well formed.
-/
namespace DocCheck.Yaml

/-- A place where a key may start. -/
structure KeyStart where
  /-- The number of tokens before. -/
  position : Nat
  /-- Nothing but a key may stand there. -/
  required : Bool
  index : Nat
  line : Nat
  column : Nat

/-- What is known of the text read so far. -/
structure Layout where
  cursor : Cursor
  tokens : Array Token
  /-- The number of brackets that are open. -/
  depth : Nat
  /-- The column of the innermost block; none is open at -1. -/
  indent : Int
  /-- The columns of the blocks around it. -/
  outer : List Int
  /-- A key may start at the next token. -/
  allowKey : Bool
  /-- For each number of open brackets the place where a key may start. -/
  keys : List (Nat × KeyStart)

/-- A reader of tokens. -/
abbrev Scan := StateT Layout Option

namespace Scan

def emit (t : Token) : Scan Unit := modify fun s => { s with tokens := s.tokens.push t }

/-- Adds a token before one that was added earlier. -/
def emitAt (position : Nat) (t : Token) : Scan Unit :=
  modify fun s => { s with tokens := s.tokens.insertIdxIfInBounds position t }

def moveTo (c : Cursor) : Scan Unit := modify fun s => { s with cursor := c }

/-- Says whether a key may start at the next token. -/
def allow (b : Bool) : Scan Unit := modify fun s => { s with allowKey := b }

/-- Adds a token that is a mark of some characters. -/
def mark (length : Nat) (t : Token) : Scan Unit := do
  moveTo ((← get).cursor.skip length)
  emit t

/-! ## Keys -/

/-- Gives up the place of a key in the innermost brackets. -/
def dropKey : Scan Unit := do
  let s ← get
  if s.keys.any fun (level, k) => level == s.depth && k.required then failure
  else set { s with keys := s.keys.filter fun (level, _) => level != s.depth }

/-- Gives up the places from which no key can reach to here: keys are short and on one line. -/
def dropStaleKeys : Scan Unit := do
  let s ← get
  let isStale := fun (k : KeyStart) =>
    k.line != s.cursor.row || k.index + 1024 < s.cursor.offset
  if s.keys.any fun (_, k) => isStale k && k.required then failure
  else set { s with keys := s.keys.filter fun (_, k) => !isStale k }

/-- Keeps the place as one where a key may start. -/
def saveKey : Scan Unit := do
  if (← get).allowKey then
    dropKey
    let s ← get
    let c := s.cursor
    let required := s.depth == 0 && s.indent == (c.column : Int)
    set { s with
      keys := (s.depth, ⟨s.tokens.size, required, c.offset, c.row, c.column⟩) :: s.keys }

/-! ## Blocks -/

/-- Closes the blocks that stand further to the right than a column; `outer` are the columns of
the blocks around the innermost one. -/
def closeFrom (column : Int) : List Int → Scan Unit
  | [] => pure ()
  | indent :: outer => do
    if column < (← get).indent then
      emit .blockEnd
      modify fun s => { s with indent := indent, outer := outer }
      closeFrom column outer

/-- Closes the blocks that stand further to the right than a column. In brackets there are no
blocks. -/
def close (column : Int) : Scan Unit := do
  let s ← get
  if s.depth = 0 then closeFrom column s.outer

/-- Opens a block at a column; says whether it is a new one. -/
def openBlock (column : Int) : Scan Bool := do
  let s ← get
  if s.indent < column then
    set { s with indent := column, outer := s.indent :: s.outer }
    return true
  else return false

/-! ## The tokens -/

def finish : Scan Unit := do
  close (-1)
  dropKey
  emit .stop

def separator (t : Token) : Scan Unit := do
  close (-1)
  dropKey
  allow false
  mark 3 t

def directive : Scan Unit := do
  close (-1)
  dropKey
  allow false
  let (t, c) ← directive? (← get).cursor
  emit t
  moveTo c

def opening (t : Token) : Scan Unit := do
  saveKey
  allow true
  modify fun s => { s with depth := s.depth + 1 }
  mark 1 t

/-- A closing bracket; one must be open. -/
def closing (t : Token) : Scan Unit := do
  dropKey
  allow false
  let s ← get
  if s.depth = 0 then failure
  set { s with depth := s.depth - 1 }
  mark 1 t

def comma : Scan Unit := do
  allow true
  dropKey
  mark 1 .comma

/-- Opens a block at the next token, unless there are open brackets. -/
def startBlock (t : Token) : Scan Unit := do
  let s ← get
  if s.depth = 0 then
    if !s.allowKey then failure
    if ← openBlock s.cursor.column then emit t

def item : Scan Unit := do
  startBlock .blockSequence
  allow true
  dropKey
  mark 1 .item

def explicitKey : Scan Unit := do
  startBlock .blockMapping
  allow ((← get).depth == 0)
  dropKey
  mark 1 .key

def value : Scan Unit := do
  let s ← get
  match s.keys.find? fun (level, _) => level == s.depth with
  | some (_, k) =>
    set { s with keys := s.keys.filter fun (level, _) => level != s.depth }
    emitAt k.position .key
    if s.depth = 0 then
      if ← openBlock k.column then emitAt k.position .blockMapping
    allow false
  | none =>
    startBlock .blockMapping
    allow (s.depth == 0)
    dropKey
  mark 1 .value

/-- A token that may be a key or stand before one. -/
def property (found : Option (Token × Cursor)) : Scan Unit := do
  saveKey
  allow false
  let (t, c) ← found
  emit t
  moveTo c

def quoted (quote : Char) : Scan Unit := do
  let c := (← get).cursor
  property ((quoted? quote c).map fun (text, c) => (.scalar (String.ofList text) false, c))

def block (fold : Bool) : Scan Unit := do
  allow true
  dropKey
  let s ← get
  let (text, c) ← block? fold (max 1 (s.indent + 1)).toNat s.cursor
  emit (.scalar (String.ofList text) false)
  moveTo c

def plainScalar : Scan Unit := do
  saveKey
  let s ← get
  let found := plain (s.depth != 0) (s.indent + 1).toNat s.cursor
  allow found.crossed
  emit (.scalar (String.ofList found.text) true)
  moveTo found.stop

/-! ## The text -/

/-- Goes to the next token. Outside brackets a key may start on a new line. -/
def skipToToken : Nat → Scan Unit
  | 0 => failure
  | n + 1 => do
    let c := skipSpaces (← get).cursor
    let c := if c.isAt '#' then skipLine c else c
    match lineBreak? c with
    | some (_, c) =>
      moveTo c
      if (← get).depth = 0 then allow true
      skipToToken n
    | none => moveTo c

def startsPlain (depth : Nat) : List Char → Bool
  | [] => false
  | c :: r =>
    (!endsWord [c] && !"-?:,[]{}#&*!|>'\"%@`".toList.contains c) ||
      (!endsWord r && (c == '-' || (depth == 0 && (c == '?' || c == ':'))))

/-- The next token; says whether there is another one behind it. -/
def token : Scan Bool := do
  skipToToken ((← get).cursor.rest.length + 1)
  dropStaleKeys
  close (← get).cursor.column
  let s ← get
  let c := s.cursor
  match c.rest with
  | [] => finish; return false
  | d :: r =>
    if d == '%' && c.column = 0 then directive
    else if c.column = 0 && d == '-' && isSeparator c.rest then separator .documentStart
    else if c.column = 0 && d == '.' && isSeparator c.rest then separator .documentEnd
    else if d == '[' then opening .openBracket
    else if d == '{' then opening .openBrace
    else if d == ']' then closing .closeBracket
    else if d == '}' then closing .closeBrace
    else if d == ',' then comma
    else if d == '-' && endsWord r then item
    else if d == '?' && (s.depth != 0 || endsWord r) then explicitKey
    else if d == ':' && (s.depth != 0 || endsWord r) then value
    else if d == '*' then property ((anchorName? c.next).map fun (n, c) => (.reference n, c))
    else if d == '&' then property ((anchorName? c.next).map fun (n, c) => (.anchor n, c))
    else if d == '!' then property (tag? c)
    else if d == '|' && s.depth = 0 then block false
    else if d == '>' && s.depth = 0 then block true
    else if d == '\'' || d == '"' then quoted d
    else if startsPlain s.depth c.rest then plainScalar
    else failure
    return true

/-- The tokens up to the end of the text. -/
def all : Nat → Scan Unit
  | 0 => failure
  | n + 1 => do if ← token then all n

end Scan

def isPrintable (c : Char) : Bool :=
  let n := c.toNat
  n == 9 || n == 10 || n == 13 || (0x20 ≤ n && n ≤ 0x7e) || n == 0x85 ||
    (0xa0 ≤ n && n ≤ 0xd7ff) || (0xe000 ≤ n && n ≤ 0xfffd) || 0x10000 ≤ n

/-- The tokens of a text. A byte order mark at its start does not count. -/
def tokens? (text : List Char) : Option (List Token) :=
  if text.all isPrintable then
    let start : Cursor := .ofText text
    let start := if (text.head?.map Char.toNat) = some 0xfeff then start.next else start
    let s : Layout := ⟨start, #[], 0, -1, [], true, []⟩
    ((Scan.all (text.length + 2)).run s).map fun (_, s) => s.tokens.toList
  else none

end DocCheck.Yaml
