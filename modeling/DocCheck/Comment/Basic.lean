import DocCheck.Location
import DocCheck.Tag.Keyword
import DocCheck.TypeExpr.Basic

/-!
# Documentation comments

A comment has a description, cut into paragraphs, and tags. A tag keeps the text
that it was written as (SPEC_FULL 3, DocComment and Tag).
-/
namespace DocCheck

structure Tag where
  /-- The keyword in lower case, with the other spellings of `param` folded into it. -/
  name : String
  /-- The tag as written, its lines trimmed. -/
  raw : String
  location : Location
  type : Option TypeExpr
  /-- The parameter that is described, for tags of parameters. -/
  paramName : Option String
  /-- The parameter's name is in square brackets. -/
  optional : Bool
  description : Option String
deriving Repr, Inhabited

namespace Tag

/-- The keyword in lower case, in the spelling that the tag has. -/
def keyword (t : Tag) : String :=
  match Keyword.split? t.raw.toList with
  | some (keyword, _) => Text.lower (String.ofList keyword)
  | none => t.name

/-- All that follows the keyword: type, name and description. -/
def valueText (t : Tag) : String :=
  match Keyword.split? t.raw.toList with
  | some (_, rest) => String.ofList (Text.trim rest)
  | none => ""

/-- The type is written, but cannot be read. -/
def hasUnknownType (t : Tag) : Bool := t.type.any TypeExpr.isUnknown

end Tag

structure Comment where
  /-- The paragraphs of the description, the lines of each between line feeds. -/
  description : List String
  tags : List Tag
  /-- The empty lines between the description and the first tag. -/
  blankLinesAfterDescription : Nat
  location : Location
deriving Repr, Inhabited

namespace Comment

def isEmpty (c : Comment) : Bool := c.description.isEmpty && c.tags.isEmpty

/-- The paragraphs of the description with an empty line between them. -/
def descriptionText (c : Comment) : String := "\n\n".intercalate c.description

def tagsNamed (c : Comment) (name : String) : List Tag := c.tags.filter fun t => t.name = name

end Comment

end DocCheck
