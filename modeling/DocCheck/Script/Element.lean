import DocCheck.Script.Type

/-!
# Elements in source text

Markup elements with attributes, which may stand in expressions. Their text is
read as it is; values between braces are expressions.
-/
namespace DocCheck.Script

/-- A leaf between the start of the next token and a place behind it. -/
def leafTo (kind : String) (named : Bool) (stop : Cursor) : Parse Pieces := do
  let start := (← current).start
  jump stop
  return [.mk kind named none start stop []]

/-- The characters of the name of an element or attribute. -/
def isElementNamePart (c : Char) : Bool := isNamePart c || c == '-'

def elementNamePart (kind : String) : Parse Pieces := do
  let t ← current
  require (t.kind = .name)
  leafTo kind true (t.start.skipWhile isElementNamePart)

/-- The name of an element: a word, words between dots, or two words with a colon. -/
def elementName : Parse Pieces := do
  let start := (← current).start
  let first ← elementNamePart "identifier"
  let more ← whileTrue (isNextOf [".", ":"]) (seq [take, elementNamePart "property_identifier"])
  if more.isEmpty then return first
  else nodeFrom start "member_expression" (first ++ more)

/-- An expression between braces, which may be left out or spread. -/
def elementExpression (g : Grammar) : Parse Pieces :=
  node "jsx_expression" (seq [eat "\x7b", do
    if ← isNext "\x7d" then return []
    else if ← isNext "..." then
      node "spread_element" (seq [eat "...", g (.assignment .any)])
    else g (.expressions .any), eat "\x7d"])

/-- A quoted value of an attribute; nothing is escaped in it. -/
def attributeString : Parse Pieces := do
  let c := (← current).start
  match c.rest with
  | quote :: _ =>
    require (quote = '"' || quote = '\'')
    leafTo "string" true ((c.next.skipWhile (· ≠ quote)).next)
  | [] => failure

def attributeValue (g : Grammar) : Parse Pieces := do
  if ← isNext "\x7b" then elementExpression g
  else if ← isNext "<" then g .element
  else attributeString

/-- An attribute, or an expression in its place. -/
def elementAttribute (g : Grammar) : Parse Pieces := do
  if ← isNext "\x7b" then elementExpression g
  else
    node "jsx_attribute" (do
      let start := (← current).start
      let first ← elementNamePart "property_identifier"
      let more ← ifNext ":" (seq [take, elementNamePart "property_identifier"])
      let name ←
        if more.isEmpty then pure first else nodeFrom start "jsx_namespace_name" (first ++ more)
      return name ++ (← ifNext "=" (seq [take, attributeValue g])))

/-- Takes several characters as one mark. -/
def joinedMark (text : String) : Parse Pieces := do
  let c := (← current).start
  require (text.toList.isPrefixOf c.rest)
  leafTo text false (c.skip text.length)

def startsWith (text : String) : Parse Bool := return text.toList.isPrefixOf (← current).start.rest

/-- The text of an element up to the next tag or expression, from the end of what was read. -/
def elementText : Parse Pieces := do
  let start := (← get).last
  let stop := start.skipWhile fun c => c ≠ '<' && c ≠ '{'
  jump stop
  if (start.rest.take (stop.offset - start.offset)).all isSpace then return []
  else return [.mk "jsx_text" true none start stop []]

/-- What stands between the tags of an element. -/
def elementChildren (g : Grammar) : Nat → Parse Pieces
  | 0 => failure
  | n + 1 => do
    let text ← elementText
    if ← startsWith "</" then return text
    else
      let child ← if ← isNext "\x7b" then elementExpression g else g .element
      return text ++ child ++ (← elementChildren g n)

def closingTag : Parse Pieces :=
  node "jsx_closing_element" (seq [joinedMark "</", do
    if ← isNext ">" then return [] else role "name" elementName, joinedMark ">"])

def element (g : Grammar) : Parse Pieces := do
  let start := (← current).start
  let bound := (← get).bound
  let head ← seq [joinedMark "<", do
    if ← startsWith ">" then return []
    else
      let name ← role "name" elementName
      let types ← ifNext "<" (role "type_arguments" (typeArguments g))
      return name ++ types ++ (← whileTrue
        (return !(← startsWith ">") && !(← startsWith "/"))
        (role "attribute" (elementAttribute g)))]
  if ← startsWith "/" then
    let close ← joinedMark "/>"
    nodeFrom start "jsx_self_closing_element" (head ++ close)
  else
    let close ← joinedMark ">"
    let opening ← nodeFrom start "jsx_opening_element" (head ++ close)
    let children ← elementChildren g bound
    let closing ← role "close_tag" closingTag
    nodeFrom start "jsx_element" (opening.map (Piece.inRole "open_tag") ++ children ++ closing)

end DocCheck.Script
