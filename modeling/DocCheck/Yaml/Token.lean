import DocCheck.Yaml.Scalar

/-!
# Tokens of a YAML text

The marks, scalars and properties of a text. The starts and ends of blocks,
which only indentation shows, are tokens too.
-/
namespace DocCheck.Yaml

inductive Token where
  /-- The version that a document is written in. -/
  | version (major : Nat)
  /-- A short form for the start of tags. -/
  | tagHandle (handle start : String)
  /-- A directive without a meaning. -/
  | reserved
  | documentStart
  | documentEnd
  | stop
  | blockSequence
  | blockMapping
  | blockEnd
  | openBracket
  | closeBracket
  | openBrace
  | closeBrace
  /-- The dash before an item. -/
  | item
  | comma
  | key
  | value
  | reference (name : String)
  | anchor (name : String)
  | tag (handle : Option String) (rest : String)
  | scalar (text : String) (plain : Bool)
deriving DecidableEq, Repr, Inhabited

/-! ## Names -/

def isNameChar (c : Char) : Bool := c.isAlphanum || c == '-' || c == '_'

/-- The name of an anchor or of a reference, behind its mark. -/
def anchorName? (c : Cursor) : Option (String × Cursor) :=
  let (name, c) := c.span isNameChar
  let ends :=
    match c.rest with
    | [] => true
    | d :: _ => endsWord [d] || "?:,]\x7d%@`".toList.contains d
  if name.isEmpty || !ends then none else some (String.ofList name, c)

/-! ## Tags -/

/-- A character of a tag that stands for itself. -/
def isTagChar (c : Char) : Bool :=
  isNameChar c || ";/?:@&=+$,.!~*'()[]".toList.contains c

/-- The bytes that a run of escapes stands for, and how many there are. -/
def escapedBytes? : Nat → List Char → Option (List UInt8)
  | 0, _ => none
  | n + 1, '%' :: a :: b :: r => do
    let byte ← hexNumber? [a, b]
    some (UInt8.ofNat byte :: (← escapedBytes? n r))
  | _ + 1, '%' :: _ => none
  | _ + 1, _ => some []

def tagCharsFrom? : Nat → Cursor → Option (List Char × Cursor)
  | 0, _ => none
  | n + 1, c =>
    match c.rest with
    | [] => some ([], c)
    | d :: r =>
      if d = '%' then do
        let bytes ← escapedBytes? (r.length + 2) c.rest
        let text ← String.fromUTF8? ⟨bytes.toArray⟩
        let (more, c) ← tagCharsFrom? n (c.skip (3 * bytes.length))
        some (text.toList ++ more, c)
      else if isTagChar d then do
        let (more, c) ← tagCharsFrom? n c.next
        some (d :: more, c)
      else some ([], c)

/-- The characters of a tag; there is at least one. -/
def tagChars? (c : Cursor) : Option (String × Cursor) := do
  let (cs, c) ← tagCharsFrom? (c.rest.length + 1) c
  if cs.isEmpty then none else some (String.ofList cs, c)

/-- The short form at the start of a tag: an exclamation mark, or a name between two. -/
def tagHandle? (c : Cursor) : Option (String × Cursor) :=
  match c.rest with
  | '!' :: ' ' :: _ => some ("!", c.next)
  | '!' :: _ =>
    let (name, c) := c.next.span isNameChar
    if c.isAt '!' then some ("!" ++ String.ofList name ++ "!", c.next) else none
  | _ => none

/-- A blank comes next, or the end of the line. -/
def isSpaced (c : Cursor) : Bool := c.isAt ' ' || endsLine c.rest

def tag? (c : Cursor) : Option (Token × Cursor) := do
  let (found, c) ←
    match c.rest with
    | '!' :: '<' :: _ => do
      let (rest, c) ← tagChars? (c.skip 2)
      if c.isAt '>' then some (Token.tag none rest, c.next) else none
    | _ :: r =>
      if endsWord r then some (Token.tag none "!", c.next)
      else
        let word := r.takeWhile fun d => d != ' ' && !isBreak d
        if word.contains '!' then do
          let (handle, c) ← tagHandle? c
          let (rest, c) ← tagChars? c
          some (Token.tag (some handle) rest, c)
        else do
          let (rest, c) ← tagChars? c.next
          some (Token.tag (some "!") rest, c)
    | [] => none
  if isSpaced c then some (found, c) else none

/-! ## Directives -/

def number? (c : Cursor) : Option (Nat × Cursor) :=
  let (ds, c) := c.span Char.isDigit
  if ds.isEmpty then none
  else some (ds.foldl (fun n d => 10 * n + (d.toNat - 0x30)) 0, c)

/-- The value of a directive with a name. -/
def directiveValue? (name : String) (c : Cursor) : Option (Token × Cursor) :=
  if name = "YAML" then do
    let (major, c) ← number? (skipSpaces c)
    if c.isAt '.' then
      let (_, c) ← number? c.next
      if isSpaced c then some (.version major, c) else none
    else none
  else if name = "TAG" then do
    let (handle, c) ← tagHandle? (skipSpaces c)
    if c.isAt ' ' then
      let (start, c) ← tagChars? (skipSpaces c)
      if isSpaced c then some (.tagHandle handle start, c) else none
    else none
  else some (.reserved, skipLine c)

def directive? (c : Cursor) : Option (Token × Cursor) := do
  let (name, c) := c.next.span isNameChar
  if name.isEmpty || !isSpaced c then none
  else
    let (found, c) ← directiveValue? (String.ofList name) c
    some (found, ← skipIgnored? c)

end DocCheck.Yaml
