import DocCheck.Decimal.Reader
import DocCheck.Text.Blank
import DocCheck.Yaml.Scalar

/-!
# Numbers in YAML

How a plain scalar must be written to be a number, and the number that a scalar
stands for. Digits may have underscores between them; parts with colons between
them are digits to the base of sixty.
-/
namespace DocCheck.Yaml

/-- A number without its sign, and whether the sign is a minus. -/
def unsigned : List Char → Bool × List Char
  | '-' :: r => (true, r)
  | '+' :: r => (false, r)
  | r => (false, r)

/-- All characters satisfy a condition, and there is one. -/
def allOf (p : Char → Bool) (cs : List Char) : Bool := !cs.isEmpty && cs.all p

/-- A digit, or the mark that may stand between digits. -/
def isSpacedDigit (c : Char) : Bool := c.isDigit || c == '_'

/-! ## How numbers are written -/

/-- Parts below sixty with a colon before each; what stands behind them. -/
def dropSixtieths : List Char → List Char
  | ':' :: a :: b :: r =>
    if '0' ≤ a && a ≤ '5' && b.isDigit then dropSixtieths r
    else if a.isDigit then dropSixtieths (b :: r)
    else ':' :: a :: b :: r
  | [':', a] => if a.isDigit then [] else [':', a]
  | r => r

/-- The scalar is written as a whole number. -/
def isInteger (cs : List Char) : Bool :=
  match (unsigned cs).2 with
  | '0' :: r =>
    r.isEmpty || allOf (fun c => ('0' ≤ c && c ≤ '7') || c == '_') r ||
      match r with
      | 'b' :: ds => allOf (fun c => c == '0' || c == '1' || c == '_') ds
      | 'x' :: ds => allOf (fun c => (hexValue? c).isSome || c == '_') ds
      | _ => false
  | c :: r => c.isDigit && (dropSixtieths (r.dropWhile isSpacedDigit)).isEmpty
  | [] => false

/-- The characters are nothing, or the exponent of a fraction, whose sign is written. -/
def isSignedExponent : List Char → Bool
  | [] => true
  | e :: sign :: ds =>
    (e == 'e' || e == 'E') && (sign == '+' || sign == '-') && allOf Char.isDigit ds
  | _ => false

/-- The scalar is written as a fraction: it has a point. -/
def isFraction (cs : List Char) : Bool :=
  let named := fun (word : String) => [".inf", ".Inf", ".INF"].contains word
  match cs with
  | '.' :: r =>
    named (String.ofList cs) || [".nan", ".NaN", ".NAN"].contains (String.ofList cs) ||
      ((r.head?.any Char.isDigit) && isSignedExponent (r.dropWhile isSpacedDigit))
  | _ =>
    match (unsigned cs).2 with
    | '.' :: r => named (String.ofList ('.' :: r))
    | c :: r =>
      c.isDigit &&
        match r.dropWhile isSpacedDigit with
        | '.' :: ds => isSignedExponent (ds.dropWhile isSpacedDigit)
        | ':' :: ds =>
          match dropSixtieths (':' :: ds) with
          | '.' :: ds => ds.all isSpacedDigit
          | _ => false
        | _ => false
    | [] => false

/-! ## What they stand for -/

/-- The number that digits to a base stand for; white space around them does not count. -/
def digitsTo? (base : Nat) (cs : List Char) : Option Nat :=
  let ds := Text.trim cs
  if ds.isEmpty then none
  else
    ds.foldl
      (fun n d => do
        let n ← n
        let v ← hexValue? d
        if v < base then some (base * n + v) else none)
      (some 0)

/-- The number that decimal digits stand for, unless they are too many. -/
def decimalDigits? (cs : List Char) : Option Nat :=
  if Decimal.maxDigits < (Text.trim cs).length then none else digitsTo? 10 cs

def colonParts (cs : List Char) : List (List Char) := cs.splitOn ':'

def toInteger? (cs : List Char) : Option Int := do
  let (negative, ds) := unsigned (cs.filter (· != '_'))
  let n ←
    match ds with
    | ['0'] => some 0
    | '0' :: 'b' :: ds => digitsTo? 2 ds
    | '0' :: 'x' :: ds => digitsTo? 16 ds
    | '0' :: ds => digitsTo? 8 ('0' :: ds)
    | ds =>
      (colonParts ds).foldl (fun n part => do some (60 * (← n) + (← decimalDigits? part))) (some 0)
  some (if negative then -(n : Int) else n)

/-- The decimal fraction that some characters stand for; white space around it does not count. -/
def decimal? (cs : List Char) : Option Float :=
  let (whole, r) := Decimal.spanDigits (Text.trim cs)
  let (places, r) :=
    match r with
    | '.' :: r => Decimal.spanDigits r
    | r => ([], r)
  let (exponent, r) := Decimal.exponentPart r
  if (whole ++ places).isEmpty || !r.isEmpty then none
  else
    some (Decimal.toFloat (Decimal.ofDigits (whole ++ places))
      (exponent.getD 0 - places.length))

/-- The sum of parts, the last of which counts once and each one before sixty times as much. -/
def sixtySum : List Float → Float → Float → Float
  | [], _, sum => sum
  | x :: xs, base, sum => sixtySum xs (base * 60) (sum + x * base)

def toFraction? (cs : List Char) : Option Float := do
  let (negative, ds) := unsigned ((cs.filter (· != '_')).map Char.toLower)
  let x ←
    if [".inf", "inf", "infinity"].contains (String.ofList ds) then some (1 / 0)
    else if [".nan", "nan"].contains (String.ofList ds) then some (0 / 0)
    else
      match colonParts ds with
      | [ds] => decimal? ds
      | parts => do
        let xs ← parts.mapM decimal?
        some (sixtySum xs.reverse 1 0)
  some (if negative then -x else x)

end DocCheck.Yaml
