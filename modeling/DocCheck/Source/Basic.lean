import DocCheck.Tree.Function

/-!
# Functions of a source text

The suffix of a file says in which dialect its source is written. Parsers of the
dialects come from outside: a `Parser` is whatever gives a tree for each text, and
nothing is asked of its trees. A grammar may be missing; then nothing is found in
sources of its dialect (SPEC_FULL 2, JavaScript host adapter).
-/
namespace DocCheck.Source

/-- The dialects that sources are written in; elements of markup may stand in the second one. -/
inductive Dialect where
  | typescript | tsx
deriving DecidableEq, Repr

/-- The tree of every text, for each dialect whose grammar is there. -/
abbrev Parser := Dialect → Option (String → Node)

/-- The dialect of sources with a suffix, if they are supported. -/
def dialect? : String → Option Dialect
  | ".js" | ".mjs" | ".cjs" | ".ts" => some .typescript
  | ".jsx" | ".tsx" => some .tsx
  | _ => none

/-- The functions of a source text as the rules see them. -/
def subjects (parser : Parser) (text suffix : String) : List Subject :=
  match (dialect? suffix).bind parser with
  | none => []
  | some tree => if text.toList.all Text.isBlank then [] else (tree text).subjects

end DocCheck.Source
