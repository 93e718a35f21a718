import DocCheck.Decimal.Shortest

/-!
# JSON values and their text

The fields of an object keep their order. Text is written in ASCII alone:
other characters are escaped by their UTF-16 units.
-/
namespace DocCheck

/-- A JSON value. Whole numbers are kept apart from numbers with a point or an exponent. -/
inductive Json where
  | null
  | bool (b : Bool)
  | int (n : Int)
  | float (x : Float)
  | str (s : String)
  | arr (items : List Json)
  | obj (fields : List (String × Json))
deriving Inhabited

namespace Json

/-! ## Strings -/

def hexDigit (n : Nat) : Char :=
  if n < 10 then Char.ofNat (0x30 + n) else Char.ofNat (0x57 + n)

/-- The last digits of a number in base sixteen, `width` of them. -/
def hexDigits : Nat → Nat → List Char
  | 0, _ => []
  | width + 1, n => hexDigits width (n / 16) ++ [hexDigit (n % 16)]

def escapeUnit (n : Nat) : List Char := '\\' :: 'u' :: hexDigits 4 n

def escapeChar (c : Char) : List Char :=
  let n := c.toNat
  if c == '"' then ['\\', '"']
  else if c == '\\' then ['\\', '\\']
  else if n == 0x08 then ['\\', 'b']
  else if n == 0x09 then ['\\', 't']
  else if n == 0x0a then ['\\', 'n']
  else if n == 0x0c then ['\\', 'f']
  else if n == 0x0d then ['\\', 'r']
  else if 0x20 ≤ n && n < 0x7f then [c]
  else if n < 0x10000 then escapeUnit n
  else
    let m := n - 0x10000
    escapeUnit (0xd800 + m / 0x400) ++ escapeUnit (0xdc00 + m % 0x400)

/-- The text of a string, with its quotes. -/
def quoted (s : String) : String :=
  String.ofList ('"' :: s.toList.flatMap escapeChar ++ ['"'])

/-! ## Values -/

/-- How JSON writes the doubles that have no digits. -/
def floatNames : Decimal.Names := ⟨"Infinity", "NaN"⟩

/-- The text of a value without parts. -/
def scalarText : Json → String
  | null => "null"
  | bool b => if b then "true" else "false"
  | int n => toString n
  | float x => Decimal.text floatNames x
  | str s => quoted s
  | arr _ => "[]"
  | obj _ => "{}"

/-- A line feed and two blanks for each level. -/
def lineAt (level : Nat) : String := "\n" ++ "".pushn ' ' (2 * level)

mutual

/-- The text of a value over several lines, inside `level` others. -/
def prettyAt (level : Nat) : Json → String
  | arr (item :: items) =>
    "[" ++ lineAt (level + 1) ++ prettyAt (level + 1) item ++ prettyItems (level + 1) items ++
      lineAt level ++ "]"
  | obj ((name, value) :: fields) =>
    "\x7b" ++ lineAt (level + 1) ++ quoted name ++ ": " ++ prettyAt (level + 1) value ++
      prettyFields (level + 1) fields ++ lineAt level ++ "\x7d"
  | v => scalarText v

def prettyItems (level : Nat) : List Json → String
  | [] => ""
  | item :: items => "," ++ lineAt level ++ prettyAt level item ++ prettyItems level items

def prettyFields (level : Nat) : List (String × Json) → String
  | [] => ""
  | (name, value) :: fields =>
    "," ++ lineAt level ++ quoted name ++ ": " ++ prettyAt level value ++
      prettyFields level fields

end

/-- The text of a value over several lines. -/
def pretty (v : Json) : String := prettyAt 0 v

mutual

/-- The text of a value on one line, in pieces to be joined; `rest` are the pieces behind it. -/
def compactOnto (rest : List String) : Json → List String
  | arr (item :: items) => "[" :: compactOnto (compactItems ("]" :: rest) items) item
  | obj ((name, value) :: fields) =>
    "\x7b" :: quoted name :: ":" :: compactOnto (compactFields ("\x7d" :: rest) fields) value
  | v => scalarText v :: rest

/-- The pieces of the further items of an array. -/
def compactItems (rest : List String) : List Json → List String
  | [] => rest
  | item :: items => "," :: compactOnto (compactItems rest items) item

def compactFields (rest : List String) : List (String × Json) → List String
  | [] => rest
  | (name, value) :: fields =>
    "," :: quoted name :: ":" :: compactOnto (compactFields rest fields) value

end

def compact (v : Json) : String := String.join (compactOnto [] v)

end Json

end DocCheck
