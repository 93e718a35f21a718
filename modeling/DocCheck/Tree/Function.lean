import DocCheck.Comment.Parser
import DocCheck.Rule.Basic
import DocCheck.Signature.Naming
import DocCheck.Tree.Flow
import DocCheck.Tree.Place

/-!
# Functions in a syntax tree

Every function of a tree is found, except those that are written as an argument of
a call. The comment of a function stands directly before the statement that
introduces it: its anchor (SPEC_FULL 2, host adapter).
-/
namespace DocCheck

namespace Place

def functionKinds : List String :=
  ["function_declaration", "generator_function_declaration", "function_expression", "function",
    "generator_function", "arrow_function", "method_definition"]

/-- The node is a function that is not written as an argument of a call. -/
def isFunction (p : Place) : Bool :=
  p.node.named && functionKinds.contains p.node.kind && !p.hasParent "arguments"

/-- The functions of a tree, in the order of the source. -/
def functions (n : Node) : List Place := (visit [root n]).filter isFunction

/-! ## Name and anchor -/

/-- How a function is introduced. -/
structure Introduction where
  name : String
  anchor : Place
  /-- The function is assigned to the exports of a module. -/
  isExport : Bool

/-- A statement with the `export` around it, if there is one. -/
def withExport (p : Place) : Place :=
  match p.parent? with
  | some q => if q.node.kind = "export_statement" then q else p
  | none => p

/-- What stands behind the last dot of a text. -/
def afterLastDot (s : String) : String :=
  String.ofList (Text.trim (s.toList.reverse.takeWhile (· ≠ '.')).reverse)

def unquoted (s : String) : String :=
  let isQuote := fun (c : Char) => c == '\'' || c == '"'
  String.ofList ((s.toList.dropWhile isQuote).reverse.dropWhile isQuote).reverse

/-- The key of a member of an object or class. -/
def memberKey (n : Node) : String :=
  match (n.child? "key").or ((n.child? "property").or (n.child? "name")) with
  | some key => unquoted key.text
  | none => ""

/-- The introduction of a function expression by its parent. -/
def introductionBy (p parent : Place) : Introduction :=
  let kind := parent.node.kind
  if kind = "variable_declarator" then
    ⟨parent.node.childText "name", (parent.parent?.getD parent).withExport, false⟩
  else if kind = "assignment_expression" then
    let target := parent.node.childText "left"
    let anchor :=
      match parent.parent? with
      | some q => if q.node.kind = "expression_statement" then q else parent
      | none => parent
    ⟨afterLastDot target, anchor, Naming.isExportTarget target⟩
  else if kind = "export_statement" then ⟨p.node.childText "name", parent, false⟩
  else if ["pair", "public_field_definition", "field_definition"].contains kind then
    ⟨memberKey parent.node, parent, false⟩
  else ⟨p.node.childText "name", p, false⟩

def introduction (p : Place) : Introduction :=
  let name := p.node.childText "name"
  if ["function_declaration", "generator_function_declaration"].contains p.node.kind then
    ⟨name, p.withExport, false⟩
  else if p.node.kind = "method_definition" then ⟨name, p, false⟩
  else
    match p.parent? with
    | none => ⟨name, p, false⟩
    | some parent => introductionBy p parent

/-! ## Parameters -/

mutual

/-- The parameter that a node declares; a comment declares none. -/
def param? : Node → Option Param
  | .mk kind _ _ text _ _ cs =>
    if kind = "comment" then none
    else if kind = "required_parameter" ∨ kind = "optional_parameter" then
      some ⟨(nameOfRole "pattern" cs).getD text, cs.any fun c => c.field == some "value"⟩
    else if kind = "assignment_pattern" then some ⟨(nameOfRole "left" cs).getD text, true⟩
    else if kind = "rest_pattern" then
      match cs.find? fun c => c.named && c.kind == "identifier" with
      | some c => some ⟨c.text, false⟩
      | none => some ⟨String.ofList (text.toList.dropWhile (· == '.')), false⟩
    else some ⟨text, false⟩

/-- The name that the first node with a role declares. -/
def nameOfRole (role : String) : List Node → Option String
  | [] => none
  | c :: cs => if c.field = some role then (param? c).map Param.name else nameOfRole role cs

end

def params (n : Node) : List Param :=
  match n.child? "parameter" with
  | some single => [⟨single.text, false⟩]
  | none =>
    match n.child? "parameters" with
    | some formal => (formal.children.filter Node.named).filterMap param?
    | none => []

/-! ## Subjects -/

/-- The comment directly before an anchor. -/
def comment? (anchor : Place) : Option Comment :=
  match anchor.previous? with
  | some n =>
    if n.isComment ∧ "/**".toList.isPrefixOf n.text.toList then
      some (Comment.parse n.text n.location)
    else none
  | none => none

/-- What the rules are told about a function. -/
def subject (p : Place) : Subject :=
  let how := p.introduction
  let (access, underscore) := Naming.classify how.name
  ⟨comment? how.anchor,
    ⟨how.name, params p.node, access, underscore, p.node.returns, how.isExport,
      how.anchor.node.location⟩⟩

end Place

/-- The functions of a tree as the rules see them, in the order of the source. -/
def Node.subjects (n : Node) : List Subject := (Place.functions n).map Place.subject

end DocCheck
