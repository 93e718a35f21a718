import DocCheck.Text.Lower
import DocCheck.Text.Word
import DocCheck.Text.Blank

/-!
# Tag keywords

A keyword is the word behind the at sign: word characters and hyphens, read
without regard to case. What a tag may carry depends on its keyword alone and not
on any preset (SPEC_FULL 4.2, per-tag type table).
-/
namespace DocCheck.Keyword

/-- Tags that may carry a type between braces. -/
def typed : List String :=
  ["arg", "argument", "augments", "cfg", "const", "constant", "define", "enum", "exception",
   "export", "extends", "implements", "lends", "member", "package", "param", "private", "prop",
   "property", "protected", "public", "return", "returns", "this", "throws", "type", "typedef",
   "var", "yield", "yields"]

def takesType (keyword : String) : Bool := typed.contains keyword

def isParam (keyword : String) : Bool := ["param", "arg", "argument"].contains keyword

/-- The keyword that this one is another spelling of. -/
def alias? (keyword : String) : Option String :=
  if ["arg", "argument"].contains keyword then some "param" else none

/-- The name of the tags of a keyword: other spellings of `param` are folded into it. -/
def tagName (keyword : String) : String := (alias? keyword).getD keyword

/-- Tags of parameters may carry a type. -/
theorem takesType_of_isParam {keyword : String} (h : isParam keyword = true) :
    takesType keyword = true := by
  have hall : ∀ word ∈ ["param", "arg", "argument"], takesType word = true := by decide
  exact hall _ (List.contains_iff_mem.mp h)

theorem tagName_of_isParam {keyword : String} (h : isParam keyword = true) :
    tagName keyword = "param" := by
  have hall : ∀ word ∈ ["param", "arg", "argument"], tagName word = "param" := by decide
  exact hall _ (List.contains_iff_mem.mp h)

/-- A character of a keyword. -/
def isKeywordChar (c : Char) : Bool := Text.isWord c || c == '-'

/-- Splits a text that starts with a tag into the keyword as written and what follows it. -/
def split? : List Char → Option (List Char × List Char)
  | '@' :: r =>
    let keyword := r.takeWhile isKeywordChar
    if keyword.isEmpty then none else some (keyword, r.dropWhile isKeywordChar)
  | _ => none

def startsTag : List Char → Bool
  | '@' :: c :: _ => Text.isWord c
  | _ => false

end DocCheck.Keyword
