import DocCheck.Decimal.Reader
import DocCheck.Json.Basic

/-!
# Reading JSON

A reader takes the characters before it and gives back the value and the
characters behind it. The first argument bounds the depth of the calls; the
number of characters is enough. What is not JSON is refused, but for the doubles
that have no digits: they are read by the names that they are written with.
-/
namespace DocCheck.Json

/-- Blanks, tabs and line ends may stand between the parts of a text. -/
def skipBlanks : List Char → List Char
  | c :: r => if c == ' ' || c == '\n' || c == '\t' || c == '\r' then skipBlanks r else c :: r
  | [] => []

def hexValue? (c : Char) : Option Nat :=
  if '0' ≤ c && c ≤ '9' then some (c.toNat - 0x30)
  else if 'a' ≤ c && c ≤ 'f' then some (c.toNat - 0x57)
  else if 'A' ≤ c && c ≤ 'F' then some (c.toNat - 0x37)
  else none

/-- Four hexadecimal digits. -/
def unit? : List Char → Option (Nat × List Char)
  | a :: b :: c :: d :: r => do
    let a ← hexValue? a
    let b ← hexValue? b
    let c ← hexValue? c
    let d ← hexValue? d
    some (((a * 16 + b) * 16 + c) * 16 + d, r)
  | _ => none

/-- The character that an escape stands for, behind the backslash. Two units that make up one
character are read together, and neither of them stands alone. -/
def escape? : List Char → Option (Char × List Char)
  | '"' :: r => some ('"', r)
  | '\\' :: r => some ('\\', r)
  | '/' :: r => some ('/', r)
  | 'b' :: r => some (Char.ofNat 0x08, r)
  | 'f' :: r => some (Char.ofNat 0x0c, r)
  | 'n' :: r => some ('\n', r)
  | 'r' :: r => some ('\r', r)
  | 't' :: r => some ('\t', r)
  | 'u' :: r => do
    let (high, r) ← unit? r
    if 0xd800 ≤ high && high < 0xdc00 then
      match r with
      | '\\' :: 'u' :: r =>
        let (low, r) ← unit? r
        if 0xdc00 ≤ low && low < 0xe000 then
          some (Char.ofNat (0x10000 + (high - 0xd800) * 0x400 + (low - 0xdc00)), r)
        else none
      | _ => none
    else if 0xdc00 ≤ high && high < 0xe000 then none
    else some (Char.ofNat high, r)
  | _ => none

/-- The rest of a string up to its closing quote; `done` is what was read before, in reverse. -/
def stringRest : Nat → List Char → List Char → Option (String × List Char)
  | 0, _, _ => none
  | _ + 1, _, [] => none
  | n + 1, done, c :: r =>
    if c == '"' then some (String.ofList done.reverse, r)
    else if c == '\\' then
      match escape? r with
      | some (c, r) => stringRest n (c :: done) r
      | none => none
    else if c.toNat < 0x20 then none
    else stringRest n (c :: done) r

/-- The digits before the point: a zero stands alone. -/
def wholePart : List Char → List Char × List Char
  | '0' :: r => (['0'], r)
  | cs => Decimal.spanDigits cs

/-- The digits behind the point; `none` if there are none. -/
def fractionPart : List Char → Option (List Char) × List Char
  | '.' :: r =>
    let (ds, s) := Decimal.spanDigits r
    if ds.isEmpty then (none, '.' :: r) else (some ds, s)
  | cs => (none, cs)

/-- The number that its parts make up. -/
def ofParts (negative : Bool) (whole : List Char) (places : Option (List Char))
    (exponent : Option Int) : Json :=
  if places.isNone && exponent.isNone then
    let n : Int := Decimal.ofDigits whole
    .int (if negative then -n else n)
  else
    let ds := places.getD []
    let e := exponent.getD 0 - ds.length
    let x := Decimal.toFloat (Decimal.ofDigits (whole ++ ds)) e
    .float (if negative then -x else x)

/-- A number without its sign. -/
def unsigned? (negative : Bool) (cs : List Char) : Option (Json × List Char) :=
  let (whole, cs) := wholePart cs
  let (places, cs) := fractionPart cs
  let (exponent, cs) := Decimal.exponentPart cs
  if whole.isEmpty then none else some (ofParts negative whole places exponent, cs)

def number? : List Char → Option (Json × List Char)
  | '-' :: r => unsigned? true r
  | cs => unsigned? false cs

def word? (w : String) (cs : List Char) : Option (List Char) :=
  if w.toList.isPrefixOf cs then some (cs.drop w.length) else none

/-- A double that has no digits, by its name. -/
def named? (cs : List Char) : Option (Json × List Char) :=
  [("NaN", 0 / 0), ("Infinity", 1 / 0), ("-Infinity", -1 / 0)].findSome? fun (name, x) =>
    (word? name cs).map fun r => (.float x, r)

mutual

/-- A value, with no blanks before it. -/
def value? : Nat → List Char → Option (Json × List Char)
  | 0, _ => none
  | _ + 1, [] => none
  | n + 1, c :: r =>
    if c == '"' then (stringRest n [] r).map fun (s, r) => (.str s, r)
    else if c == '[' then
      match skipBlanks r with
      | ']' :: r => some (.arr [], r)
      | r => (items? n [] r).map fun (items, r) => (.arr items, r)
    else if c == '{' then
      match skipBlanks r with
      | '}' :: r => some (.obj [], r)
      | r => (fields? n [] r).map fun (fields, r) => (.obj fields, r)
    else if c == 't' then (word? "true" (c :: r)).map fun r => (.bool true, r)
    else if c == 'f' then (word? "false" (c :: r)).map fun r => (.bool false, r)
    else if c == 'n' then (word? "null" (c :: r)).map fun r => (.null, r)
    else (named? (c :: r)).or (number? (c :: r))

/-- The items of an array with its closing bracket; `done` are those read before, in reverse. -/
def items? : Nat → List Json → List Char → Option (List Json × List Char)
  | 0, _, _ => none
  | n + 1, done, cs => do
    let (v, r) ← value? n cs
    match skipBlanks r with
    | ',' :: r => items? n (v :: done) (skipBlanks r)
    | ']' :: r => some ((v :: done).reverse, r)
    | _ => none

/-- The fields of an object with its closing brace; `done` are those read before, in reverse. -/
def fields? : Nat → List (String × Json) → List Char → Option (List (String × Json) × List Char)
  | 0, _, _ => none
  | n + 1, done, '"' :: r => do
    let (name, r) ← stringRest n [] r
    let ':' :: r := skipBlanks r | none
    let (v, r) ← value? n (skipBlanks r)
    match skipBlanks r with
    | ',' :: r => fields? n ((name, v) :: done) (skipBlanks r)
    | '}' :: r => some (((name, v) :: done).reverse, r)
    | _ => none
  | _ + 1, _, _ => none

end

/-- Reads a text that is one value. -/
def parse (text : String) : Option Json :=
  let cs := text.toList
  match value? (cs.length + 1) (skipBlanks cs) with
  | some (v, r) => if (skipBlanks r).isEmpty then some v else none
  | none => none

/-! ## Looking into values -/

/-- The value of a field; of fields with one name the last counts. -/
def field? (name : String) : Json → Option Json
  | obj fields => (fields.reverse.find? fun f => f.1 = name).map Prod.snd
  | _ => none

end DocCheck.Json
