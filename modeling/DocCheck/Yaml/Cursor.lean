import DocCheck.Text.Cursor

/-!
# Cursors in a YAML text

Columns count characters; a byte order mark takes no column. Carriage returns do
not occur: line ends are line feeds, or the line and paragraph separators of
Unicode.
-/
namespace DocCheck.Yaml

def isBreak (c : Char) : Bool :=
  c == '\n' || c.toNat == 0x85 || c.toNat == 0x2028 || c.toNat == 0x2029

def endsLine : List Char → Bool
  | [] => true
  | c :: _ => isBreak c

def endsWord : List Char → Bool
  | [] => true
  | c :: _ => c == ' ' || c == '\t' || isBreak c

/-- A document starts or ends with the next three characters. -/
def isSeparator : List Char → Bool
  | '-' :: '-' :: '-' :: r => endsWord r
  | '.' :: '.' :: '.' :: r => endsWord r
  | _ => false

def measure : Text.Measure := ⟨isBreak, fun d => if d.toNat = 0xfeff then 0 else 1⟩

abbrev Cursor := Text.Cursor measure

def skipSpaces (c : Cursor) : Cursor := c.skipWhile (· == ' ')

def skipLine (c : Cursor) : Cursor := c.skipWhile fun d => !isBreak d

/-- The end of a line as it counts in a text, and the place behind it. -/
def lineBreak? (c : Cursor) : Option (Char × Cursor) :=
  match c.rest with
  | [] => none
  | d :: _ =>
    if isBreak d then some (if d.toNat = 0x85 then '\n' else d, c.next) else none

/-- The place on the next line, if only blanks and a comment are left on this one. -/
def skipIgnored? (c : Cursor) : Option Cursor :=
  let c := skipSpaces c
  let c := if c.isAt '#' then skipLine c else c
  match lineBreak? c with
  | some (_, c') => some c'
  | none => if c.rest.isEmpty then some c else none

end DocCheck.Yaml
