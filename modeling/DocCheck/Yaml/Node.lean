import DocCheck.Assoc
import DocCheck.Yaml.Layout

/-!
# Nodes of a YAML document

A node is a scalar, a sequence or a mapping, with the tag that is written before
it. A reference stands for the node of its anchor, which is complete by then. A
text holds one document at most. The first argument of the readers bounds the
depth of their calls.
-/
namespace DocCheck.Yaml

inductive Node where
  /-- A scalar; what a plain one means depends on how it is written. -/
  | scalar (tag : Option String) (plain : Bool) (text : String)
  | sequence (tag : Option String) (items : List Node)
  | mapping (tag : Option String) (entries : List (Node × Node))
deriving Inhabited

/-- What is left to read, and what is known from before. -/
structure Reading where
  tokens : List Token
  anchors : List (String × Node)
  handles : List (String × String)

abbrev Read := StateT Reading Option

namespace Read

def peek : Read Token := return (← get).tokens.headD .stop

def advance : Read Unit := modify fun s => { s with tokens := s.tokens.tail }

def expect (t : Token) : Read Unit := do
  if (← peek) = t then advance else failure

/-- Goes past a token if it is next; says whether it is. -/
def passIf (t : Token) : Read Bool := do
  if (← peek) = t then
    advance
    return true
  else return false

/-! ## Properties -/

def anchorName : Read (Option String) := do
  match ← peek with
  | .anchor name => advance; return some name
  | _ => return none

/-- A tag before a node, in full. -/
def tagName : Read (Option String) := do
  match ← peek with
  | .tag none rest => advance; return some rest
  | .tag (some handle) rest =>
    advance
    match Assoc.lookup handle (← get).handles with
    | some start => return some (start ++ rest)
    | none => failure
  | _ => return none

/-- The anchor and the tag before a node, in any order. -/
def properties : Read (Option String × Option String) := do
  match ← anchorName with
  | some name => return (some name, ← tagName)
  | none =>
    let tag ← tagName
    return (← anchorName, tag)

/-- A node for an anchor, which must be new. -/
def bind (name : String) (n : Node) : Read Unit := do
  let s ← get
  if (Assoc.lookup name s.anchors).isSome then failure
  else set { s with anchors := (name, n) :: s.anchors }

/-- A scalar that is not written. -/
def empty : Node := .scalar none true ""

/-- The text of a tag as far as it says something: a lone exclamation mark says nothing. -/
def sayingTag (written : Option String) : Option String :=
  if written = some "!" then none else written

/-- A node that only its properties show. -/
def unwritten (anchored : Bool) (written : Option String) : Read Node := do
  if anchored || written.isSome then
    let tag := sayingTag written
    return .scalar tag tag.isNone ""
  else failure

/-! ## Nodes -/

mutual

/-- A node. A block may stand where `block` says so, and the items of a sequence without a block
of their own where `loose` says so. -/
def node (block loose : Bool) : Nat → Read Node
  | 0 => failure
  | n + 1 => do
    match ← peek with
    | .reference name =>
      advance
      match Assoc.lookup name (← get).anchors with
      | some found => return found
      | none => failure
    | _ =>
      let (anchor, written) ← properties
      let found ← content block loose anchor.isSome written n
      match anchor with
      | some name => bind name found; return found
      | none => return found

def content (block loose anchored : Bool) (written : Option String) : Nat → Read Node
  | 0 => failure
  | n + 1 => do
    let tag := sayingTag written
    match ← peek with
    | .scalar text plain =>
      advance
      return .scalar tag ((plain && written.isNone) || written == some "!") text
    | .openBracket => advance; return .sequence tag (← flowItems true n)
    | .openBrace => advance; return .mapping tag (← flowEntries true n)
    | .item =>
      if loose then return .sequence tag (← looseItems n) else unwritten anchored written
    | .blockSequence =>
      if block then
        advance
        return .sequence tag (← blockItems n)
      else unwritten anchored written
    | .blockMapping =>
      if block then
        advance
        return .mapping tag (← blockEntries n)
      else unwritten anchored written
    | _ => unwritten anchored written

/-- A node, or an empty scalar in front of one of some tokens. -/
def nodeUnless (stops : List Token) (block loose : Bool) : Nat → Read Node
  | 0 => failure
  | n + 1 => do
    if stops.contains (← peek) then return empty else node block loose n

def blockItems : Nat → Read (List Node)
  | 0 => failure
  | n + 1 => do
    if ← passIf .item then
      let first ← nodeUnless [.item, .blockEnd] true false n
      return first :: (← blockItems n)
    else
      expect .blockEnd
      return []

/-- The items of a sequence that ends where no dash follows. -/
def looseItems : Nat → Read (List Node)
  | 0 => failure
  | n + 1 => do
    if ← passIf .item then
      let first ← nodeUnless [.item, .key, .value, .blockEnd] true false n
      return first :: (← looseItems n)
    else return []

def blockEntries : Nat → Read (List (Node × Node))
  | 0 => failure
  | n + 1 => do
    if ← passIf .key then
      let stops : List Token := [.key, .value, .blockEnd]
      let k ← nodeUnless stops true true n
      let v ← if ← passIf .value then nodeUnless stops true true n else pure empty
      return (k, v) :: (← blockEntries n)
    else
      expect .blockEnd
      return []

/-- A key and its value in brackets, behind the mark of a key. -/
def flowEntry (closer : Token) : Nat → Read (Node × Node)
  | 0 => failure
  | n + 1 => do
    let k ← nodeUnless [.value, .comma, closer] false false n
    let v ← if ← passIf .value then nodeUnless [.comma, closer] false false n else pure empty
    return (k, v)

/-- The items in brackets up to the closing one. An item may be a mapping of one entry. -/
def flowItems (first : Bool) : Nat → Read (List Node)
  | 0 => failure
  | n + 1 => do
    if ← passIf .closeBracket then return []
    else
      if !first then expect .comma
      if ← passIf .closeBracket then return []
      else if ← passIf .key then
        let entry ← flowEntry .closeBracket n
        return .mapping none [entry] :: (← flowItems false n)
      else
        let item ← node false false n
        return item :: (← flowItems false n)

/-- The entries in braces up to the closing one. -/
def flowEntries (first : Bool) : Nat → Read (List (Node × Node))
  | 0 => failure
  | n + 1 => do
    if ← passIf .closeBrace then return []
    else
      if !first then expect .comma
      if ← passIf .closeBrace then return []
      else if ← passIf .key then
        let entry ← flowEntry .closeBrace n
        return entry :: (← flowEntries false n)
      else
        let k ← node false false n
        return (k, empty) :: (← flowEntries false n)

end

/-! ## Documents -/

/-- The start of the tags that every text knows. -/
def standardStart : String := "tag:yaml.org,2002:"

/-- The short forms of tags that every text knows. -/
def standardHandles : List (String × String) := [("!", "!"), ("!!", standardStart)]

/-- The directives of a document; one version at most, and every short form once. The first
argument is whether a version came before. -/
def directives (versioned : Bool) (handles : List (String × String)) : Nat → Read Unit
  | 0 => failure
  | n + 1 => do
    match ← peek with
    | .version major =>
      advance
      if versioned || major != 1 then failure else directives true handles n
    | .tagHandle handle start =>
      advance
      if (Assoc.lookup handle handles).isSome then failure
      else directives versioned (handles ++ [(handle, start)]) n
    | .reserved => advance; directives versioned handles n
    | _ => modify fun s => { s with handles := handles ++ standardHandles }

def passDocumentEnds : Nat → Read Unit
  | 0 => failure
  | n + 1 => do if ← passIf .documentEnd then passDocumentEnds n

def isDirective : Token → Bool
  | .version _ => true
  | .tagHandle _ _ => true
  | .reserved => true
  | _ => false

/-- The node of the document of a text, if there is one. -/
def document (n : Nat) : Read (Option Node) := do
  let t ← peek
  if isDirective t || t = .documentStart then
    directives false [] n
    expect .documentStart
    let u ← peek
    let found ←
      if isDirective u || [Token.documentStart, .documentEnd, .stop].contains u then pure empty
      else node true false n
    passDocumentEnds n
    expect .stop
    return some found
  else if t = .stop then return none
  else
    let found ← node true false n
    passDocumentEnds n
    expect .stop
    return some found

end Read

/-- The node of a text, if it holds one; the outer `none` is a text that is not well formed. -/
def document? (text : List Char) : Option (Option Node) := do
  let tokens ← tokens? text
  let s : Reading := ⟨tokens, [], Read.standardHandles⟩
  let (found, _) ← (Read.document (8 * tokens.length + 8)).run s
  some found

end DocCheck.Yaml
