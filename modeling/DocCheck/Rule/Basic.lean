import DocCheck.Comment.Basic
import DocCheck.Config.Basic
import DocCheck.Signature.Basic

/-!
# Findings

A rule looks at one function, with its comment if it has one, and reports findings
(SPEC_FULL 3, Finding).
-/
namespace DocCheck

structure Finding where
  rule : RuleId
  message : String
  location : Location
deriving DecidableEq, Repr

/-- What a rule sees of a function. -/
structure Subject where
  comment : Option Comment
  signature : Signature

namespace Subject

/-- The tags of the comment; none if there is no comment. -/
def tags (s : Subject) : List Tag :=
  match s.comment with
  | some c => c.tags
  | none => []

def tagsNamed (s : Subject) (name : String) : List Tag := s.tags.filter fun t => t.name = name

def paramTags (s : Subject) : List Tag := s.tagsNamed "param"

def returnTags (s : Subject) : List Tag :=
  s.tags.filter fun t => t.name = "return" ∨ t.name = "returns"

end Subject

/-- The parameter of a tag as messages show it. -/
def Tag.label (t : Tag) : String :=
  match t.paramName with
  | some name => if name = "" then "(unnamed)" else "'" ++ name ++ "'"
  | none => "(unnamed)"

end DocCheck
