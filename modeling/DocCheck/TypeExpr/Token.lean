import DocCheck.Text.Blank
import DocCheck.Text.Word

/-!
# Tokens of type expressions

Identifiers and punctuation; white space separates tokens and is otherwise
skipped. An identifier starts with an ASCII letter, an underscore or a dollar sign
and is as long as possible, and so is a punctuation mark: `...` is not cut into
dots (SPEC_FULL 4.1, TypeExpressionParser).

Results:

* `punctuation_length`: a punctuation mark that is recognised uses up characters.
-/
namespace DocCheck.TypeExpr

inductive Mark where
  | ellipsis | dotLess | brackets | bar | question | bang | equals | less | dot | greater
  | openParen | closeParen | openBrace | closeBrace | comma | colon | star
deriving DecidableEq, Repr

def Mark.spelling : Mark → List Char
  | .ellipsis => ['.', '.', '.']
  | .dotLess => ['.', '<']
  | .brackets => ['[', ']']
  | .bar => ['|']
  | .question => ['?']
  | .bang => ['!']
  | .equals => ['=']
  | .less => ['<']
  | .dot => ['.']
  | .greater => ['>']
  | .openParen => ['(']
  | .closeParen => [')']
  | .openBrace => ['{']
  | .closeBrace => ['}']
  | .comma => [',']
  | .colon => [':']
  | .star => ['*']

inductive Token where
  | ident (name : String)
  | mark (m : Mark)
deriving DecidableEq, Repr

/-- The characters that a token was read from. -/
def Token.spelling : Token → List Char
  | .ident name => name.toList
  | .mark m => m.spelling

def startsIdent (c : Char) : Bool := c.isAlpha || c == '_' || c == '$'

def continuesIdent (c : Char) : Bool := Text.isWord c || c == '$'

/-- The longest punctuation mark at the start of a text, and what follows it. -/
def punctuation : List Char → Option (Mark × List Char)
  | '.' :: '.' :: '.' :: r => some (.ellipsis, r)
  | '.' :: '<' :: r => some (.dotLess, r)
  | '.' :: r => some (.dot, r)
  | '[' :: ']' :: r => some (.brackets, r)
  | '|' :: r => some (.bar, r)
  | '?' :: r => some (.question, r)
  | '!' :: r => some (.bang, r)
  | '=' :: r => some (.equals, r)
  | '<' :: r => some (.less, r)
  | '>' :: r => some (.greater, r)
  | '(' :: r => some (.openParen, r)
  | ')' :: r => some (.closeParen, r)
  | '{' :: r => some (.openBrace, r)
  | '}' :: r => some (.closeBrace, r)
  | ',' :: r => some (.comma, r)
  | ':' :: r => some (.colon, r)
  | '*' :: r => some (.star, r)
  | _ => none

theorem punctuation_spelling {cs r : List Char} {m : Mark} (h : punctuation cs = some (m, r)) :
    cs = m.spelling ++ r := by
  unfold punctuation at h
  split at h <;> simp_all [Mark.spelling] <;> obtain ⟨rfl, rfl⟩ := h <;> rfl

theorem punctuation_length {cs r : List Char} {m : Mark} (h : punctuation cs = some (m, r)) :
    r.length < cs.length := by
  rw [punctuation_spelling h, List.length_append]
  cases m <;> simp [Mark.spelling]

/-- The tokens of a text, or nothing when some character starts neither a token nor white
space. -/
def tokenize : List Char → Option (List Token)
  | [] => some []
  | c :: r =>
    if Text.isBlank c then tokenize r
    else if startsIdent c then
      let name := String.ofList (c :: r.takeWhile continuesIdent)
      (tokenize (r.dropWhile continuesIdent)).map (.ident name :: ·)
    else
      match _h : punctuation (c :: r) with
      | some (m, rest) => (tokenize rest).map (.mark m :: ·)
      | none => none
termination_by cs => cs.length
decreasing_by
  · simp
  · exact Nat.lt_succ_of_le (List.dropWhile_suffix _).length_le
  · exact punctuation_length _h

end DocCheck.TypeExpr
