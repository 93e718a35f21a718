import DocCheck.Comment.Basic
import DocCheck.Comment.Line
import DocCheck.TypeExpr.Parser

/-!
# Reading documentation comments

The lines before the first tag are the description; a tag runs from its at sign to
the line before the next tag. A tag is read from left to right: the keyword, a
type between braces where the keyword takes one, the name of a parameter where it
introduces one, and the description (SPEC_FULL 4.2, DocCommentParser).
-/
namespace DocCheck

/-! ## Tags -/

namespace Tag

/-- Splits a text behind the bracket that closes the first one. `depth` brackets are open
before the text. -/
def closingSplit? (opener closer : Char) : Nat → List Char → Option (List Char × List Char)
  | _, [] => none
  | depth, c :: r =>
    if c = opener then
      (closingSplit? opener closer (depth + 1) r).map fun (inside, rest) => (c :: inside, rest)
    else if c = closer then
      if depth ≤ 1 then some ([c], r)
      else (closingSplit? opener closer (depth - 1) r).map fun (inside, rest) => (c :: inside, rest)
    else (closingSplit? opener closer depth r).map fun (inside, rest) => (c :: inside, rest)

/-- A text without its first and last character. -/
def inside (cs : List Char) : List Char := cs.tail.dropLast

/-- A string for a text that is not empty. -/
def nonEmpty? (cs : List Char) : Option String :=
  if cs.isEmpty then none else some (String.ofList cs)

/-- The type at the start of a trimmed text, and what follows it. Braces that never close
make the whole text an unknown type; so do braces around nothing. -/
def typePart (keyword : String) (text : List Char) : Option TypeExpr × List Char :=
  if Keyword.takesType keyword ∧ text.head? = some '{' then
    match closingSplit? '{' '}' 0 text with
    | none => (some (.unknown (String.ofList text)), [])
    | some (block, rest) =>
      let type :=
        if (Text.trim (inside block)).isEmpty then .unknown (String.ofList block)
        else TypeExpr.parse (String.ofList block)
      (some type, Text.trim rest)
  else (none, text)

/-- The parameter at the start of a trimmed text. -/
structure ParamPart where
  name : Option String
  optional : Bool
  rest : List Char

/-- The name of a parameter at the start of a trimmed text. A name in square brackets is
optional and may have a default behind an equals sign. A hyphen that stands alone is no
name: it introduces the description. -/
def paramPart (keyword : String) (text : List Char) : ParamPart :=
  if Keyword.isParam keyword then
    match text with
    | [] => ⟨none, false, []⟩
    | '[' :: _ =>
      match closingSplit? '[' ']' 0 text with
      | none => ⟨none, false, text⟩
      | some (block, rest) =>
        let name := Text.trim ((inside block).takeWhile (· ≠ '='))
        ⟨nonEmpty? name, true, Text.trim rest⟩
    | _ =>
      let (name, rest) := Text.spanWord text
      if name = ['-'] then ⟨none, false, text⟩
      else ⟨some (String.ofList name), false, Text.trim rest⟩
  else ⟨none, false, text⟩

def parse (text : List Char) (location : Location) : Tag :=
  match Keyword.split? text with
  | none =>
    let word := Text.lower (String.ofList (text.dropWhile (· == '@')))
    ⟨if word.isEmpty then "@" else word, String.ofList text, location, none, none, false, none⟩
  | some (written, rest) =>
    let keyword := Text.lower (String.ofList written)
    let (type, rest) := typePart keyword (Text.trim rest)
    let param := paramPart keyword rest
    ⟨Keyword.tagName keyword, String.ofList text, location, type, param.name, param.optional,
      nonEmpty? param.rest⟩

end Tag

/-! ## Comments -/

namespace Comment

/-- The line holds nothing but white space. -/
def Line.isEmpty (line : Line) : Bool := (Text.trim line.text).isEmpty

def Line.startsTag (line : Line) : Bool := Keyword.startsTag (Text.trimStart line.text)

/-- The maximal runs of texts that are not empty; `run` is the run that the texts before end
with, in reverse. -/
def paragraphsFrom (run : List (List Char)) : List (List Char) → List (List (List Char))
  | [] => if run.isEmpty then [] else [run.reverse]
  | text :: texts =>
    if text.isEmpty then
      if run.isEmpty then paragraphsFrom [] texts
      else run.reverse :: paragraphsFrom [] texts
    else paragraphsFrom (text :: run) texts

def joinLines (lines : List (List Char)) : List Char := ['\n'].intercalate lines

def paragraphs (lines : List Line) : List String :=
  (paragraphsFrom [] (lines.map fun line => Text.trim line.text)).map fun run =>
    String.ofList (joinLines run)

/-- The number of empty lines at the end. -/
def trailingBlanks (lines : List Line) : Nat := (lines.reverse.takeWhile Line.isEmpty).length

/-- The lines of a tag, and where it starts. -/
structure Block where
  location : Location
  /-- The trimmed lines. -/
  texts : List (List Char)

/-- The place of a tag that starts on a line. `index` counts the lines of the comment; only
on the first line the column of the comment counts. -/
def tagLocation (start : Location) (index : Nat) (line : Line) : Location :=
  let column := line.column + (line.text.takeWhile Text.isBlank).length
  ⟨start.line + index, if index = 0 then start.column + column else column⟩

/-- Cuts lines, the first of which is numbered `index`, into the part before the first tag
and the tags. -/
def blocks (start : Location) : Nat → List Line → List (List Char) × List Block
  | _, [] => ([], [])
  | index, line :: lines =>
    let (texts, rest) := blocks start (index + 1) lines
    let text := Text.trim line.text
    if line.startsTag then ([], ⟨tagLocation start index line, text :: texts⟩ :: rest)
    else (text :: texts, rest)

/-- The tag of a block, without the empty lines at its end. -/
def Block.toTag (b : Block) : Tag :=
  let texts := (b.texts.reverse.dropWhile List.isEmpty).reverse
  Tag.parse (joinLines texts) b.location

def parse (raw : String) (start : Location) : Comment :=
  let lines := contentLines raw.toList
  let before := lines.takeWhile fun line => !line.startsTag
  let description := paragraphs before
  ⟨description, (blocks start 0 lines).2.map Block.toTag,
    if description.isEmpty then 0 else trailingBlanks before, start⟩

end Comment

end DocCheck
