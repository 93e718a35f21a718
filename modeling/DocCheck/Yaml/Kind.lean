import DocCheck.Yaml.Moment
import DocCheck.Yaml.Node
import DocCheck.Yaml.Number

/-!
# Kinds of scalars

What a node is: its tag says so, or else the way in which a plain scalar is
written.
-/
namespace DocCheck.Yaml

inductive Kind where
  | null | bool | integer | fraction | text | bytes | moment | sequence | mapping | set | pairs
  /-- The key under which another mapping is taken over. -/
  | merge
  /-- The key under which a mapping has a value of its own. -/
  | default
  /-- No kind that is known. -/
  | unknown
deriving DecidableEq, Repr

/-- The words that are truth values. -/
def truth? : String → Option Bool
  | "yes" => some true
  | "no" => some false
  | "true" => some true
  | "false" => some false
  | "on" => some true
  | "off" => some false
  | _ => none

/-- A word with its first letter in upper case. -/
def capitalized : List Char → List Char
  | c :: r => c.toUpper :: r
  | [] => []

/-- The word is written in lower case, in upper case, or with its first letter in upper case. -/
def isSpelled (word : String) (cs : List Char) : Bool :=
  let w := word.toList
  cs == w || cs == capitalized w || cs == w.map Char.toUpper

/-- What a plain scalar is by the way in which it is written. -/
def Kind.ofPlain (cs : List Char) : Kind :=
  if ["yes", "no", "true", "false", "on", "off"].any fun w => isSpelled w cs then .bool
  else if isFraction cs then .fraction
  else if isInteger cs then .integer
  else if cs = ['<', '<'] then .merge
  else if cs = [] ∨ cs = ['~'] ∨ isSpelled "null" cs then .null
  else if isMoment cs then .moment
  else if cs = ['='] then .default
  else .text

/-- What a node with a tag is. -/
def Kind.ofTag (tag : String) : Kind :=
  if Read.standardStart.toList.isPrefixOf tag.toList then
    match String.ofList (tag.toList.drop Read.standardStart.length) with
    | "null" => .null
    | "bool" => .bool
    | "int" => .integer
    | "float" => .fraction
    | "str" => .text
    | "binary" => .bytes
    | "timestamp" => .moment
    | "seq" => .sequence
    | "map" => .mapping
    | "set" => .set
    | "omap" => .pairs
    | "pairs" => .pairs
    | "merge" => .merge
    | "value" => .default
    | _ => .unknown
  else .unknown

def Node.kind : Node → Kind
  | .scalar (some tag) _ _ => .ofTag tag
  | .scalar none plain text => if plain then .ofPlain text.toList else .text
  | .sequence (some tag) _ => .ofTag tag
  | .sequence none _ => .sequence
  | .mapping (some tag) _ => .ofTag tag
  | .mapping none _ => .mapping

end DocCheck.Yaml
