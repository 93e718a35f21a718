import DocCheck.Script.Cursor

/-!
# Tokens of source text

Names, numbers, strings and marks. Keywords are names: which of them are
reserved is for the grammar to say. A mark is as long as possible; where the
grammar wants a shorter one, or a regular expression, a template or the text of
an element, it reads the characters itself.
-/
namespace DocCheck.Script

inductive TokenKind where
  | name | privateName | number | string | mark
  /-- The end of the text. -/
  | stop
  /-- A character that starts no token. -/
  | stray
deriving DecidableEq, Inhabited

structure Token where
  kind : TokenKind
  text : String
  start : Cursor
  stop : Cursor
  /-- A line ends between the token before and this one. -/
  newlineBefore : Bool
deriving Inhabited

/-! ## Names -/

def isNamePart (c : Char) : Bool :=
  0x20 ≤ c.toNat && !isSpace c && !(":;`\"'@#.,|^&<=>+-*/\\%?!~()[]{}".toList.contains c)

mutual

def nameLength : List Char → Nat
  | '\\' :: 'u' :: '{' :: r => 3 + escapeLength r
  | '\\' :: 'u' :: r => 2 + nameLength r
  | c :: r => if isNamePart c then 1 + nameLength r else 0
  | [] => 0

/-- The length of the rest of a name from inside the braces of an escape. -/
def escapeLength : List Char → Nat
  | '}' :: r => 1 + nameLength r
  | _ :: r => 1 + escapeLength r
  | [] => 0

end

/-! ## Numbers and strings -/

def digitsLength (cs : List Char) : Nat := (cs.takeWhile fun c => c.isDigit || c == '_').length

def exponentLength : List Char → Nat
  | c :: r =>
    if c == 'e' || c == 'E' then
      match r with
      | '+' :: d :: _ => if d.isDigit then 2 + digitsLength r.tail else 0
      | '-' :: d :: _ => if d.isDigit then 2 + digitsLength r.tail else 0
      | d :: _ => if d.isDigit then 1 + digitsLength r else 0
      | [] => 0
    else 0
  | [] => 0

def numberLength (cs : List Char) : Nat :=
  let inBase := fun (r : List Char) =>
    2 + (r.takeWhile fun c => c.isAlphanum || c == '_').length
  match cs with
  | '0' :: 'x' :: r => inBase r
  | '0' :: 'X' :: r => inBase r
  | '0' :: 'o' :: r => inBase r
  | '0' :: 'O' :: r => inBase r
  | '0' :: 'b' :: r => inBase r
  | '0' :: 'B' :: r => inBase r
  | cs =>
    let whole := digitsLength cs
    let point :=
      match cs.drop whole with
      | '.' :: r => 1 + digitsLength r
      | _ => 0
    let digits := whole + point
    let exponent := exponentLength (cs.drop digits)
    let big := if (cs.drop (digits + exponent)).head? == some 'n' then 1 else 0
    digits + exponent + big

def stringRest? (quote : Char) : List Char → Option Nat
  | [] => none
  | '\\' :: _ :: r => (stringRest? quote r).map (· + 2)
  | c :: r =>
    if c = quote then some 1
    else if c = '\n' then none
    else (stringRest? quote r).map (· + 1)

/-! ## Marks -/

/-- The marks of more than one character, longer ones first. -/
def longMarks : List String :=
  [">>>=", "...", "===", "!==", "**=", "<<=", ">>=", ">>>", "&&=", "||=", "??=", "=>", "==", "!=",
    "<=", ">=", "&&", "||", "??", "?.", "++", "--", "+=", "-=", "*=", "/=", "%=", "&=", "|=", "^=",
    "<<", ">>", "**"]

/-- The marks of one character. -/
def shortMarks : List Char := "()[]{};,<>=+-*/%&|^!~?:.@`".toList

/-- The length of the mark at the start of a text. A question mark before a decimal fraction is
no part of an optional chain. -/
def markLength? (cs : List Char) : Option Nat :=
  match cs with
  | '?' :: '.' :: d :: _ => if d.isDigit then some 1 else some 2
  | _ =>
    match longMarks.find? fun m => m.toList.isPrefixOf cs with
    | some m => some m.length
    | none =>
      match cs with
      | c :: _ => if shortMarks.contains c then some 1 else none
      | [] => none

/-! ## Lexing -/

/-- The kind and the length of the token at the start of a text. -/
def lexeme (cs : List Char) : TokenKind × Nat :=
  match cs with
  | [] => (.stop, 0)
  | c :: r =>
    if c.isDigit || (c == '.' && r.head?.any Char.isDigit) then (.number, numberLength cs)
    else if c == '"' || c == '\'' then
      match stringRest? c r with
      | some n => (.string, n + 1)
      | none => (.stray, 1)
    else if c == '#' then
      if 0 < nameLength r then (.privateName, 1 + nameLength r) else (.stray, 1)
    else if 0 < nameLength cs then (.name, nameLength cs)
    else
      match markLength? cs with
      | some n => (.mark, n)
      | none => (.stray, 1)

/-- The first token behind a place. -/
def Token.after (c : Cursor) : Token :=
  let start := skipTrivia c
  let (kind, length) := lexeme start.rest
  let stop := start.skip length
  ⟨kind, start.textTo stop, start, stop, c.row < start.row⟩

end DocCheck.Script
