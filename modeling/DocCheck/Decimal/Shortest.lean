import DocCheck.Decimal.Binary

/-!
# The shortest decimal that reads back

Of all decimal numbers that round to a given double, the one with the fewest
digits is taken, and of those the nearest to the double. For a number of digits
the candidates lie on a grid, and only the two neighbours of the double on that
grid can be nearest.
-/
namespace DocCheck.Decimal

/-- A positive decimal: `digits` times ten to the power of `exponent`. -/
structure Scientific where
  digits : Nat
  exponent : Int
deriving DecidableEq, Repr

def digitCount (n : Nat) : Nat := (Nat.toDigits 10 n).length

/-- The exponent of the first decimal digit of a quotient below one. -/
def leadingZeros (num den : Nat) : Nat → Nat
  | 0 => 0
  | fuel + 1 => if num * 10 < den then leadingZeros (num * 10) den fuel + 1 else 1

def leadingExponent (r : Rounding) : Int :=
  if r.den ≤ r.num then (digitCount (r.num / r.den) : Int) - 1
  else -(leadingZeros r.num r.den 400 : Int)

/-- Takes trailing zeros into the exponent. -/
def Scientific.strip (s : Scientific) : Nat → Scientific
  | 0 => s
  | fuel + 1 =>
    if s.digits ≠ 0 ∧ s.digits % 10 = 0 then
      Scientific.strip ⟨s.digits / 10, s.exponent + 1⟩ fuel
    else s

/-- The candidate on the grid of the multiples of ten to the power of `exponent`, if one
rounds to the number. Of two at the same distance the even one is taken. -/
def onGrid? (r : Rounding) (exponent : Int) : Option Scientific :=
  let up := Nat.pow 10 (-exponent).toNat
  let step := r.den * Nat.pow 10 exponent.toNat
  let num := r.num * up
  let low := r.low * up
  let high := r.high * up
  let inside := fun d =>
    if r.closed then low ≤ d * step && d * step ≤ high else low < d * step && d * step < high
  let below := num / step
  let above := below + 1
  let rest := num - below * step
  match inside below, inside above with
  | false, false => none
  | true, false => some ⟨below, exponent⟩
  | false, true => some ⟨above, exponent⟩
  | true, true =>
    if 2 * rest < step then some ⟨below, exponent⟩
    else if step < 2 * rest then some ⟨above, exponent⟩
    else some ⟨if below % 2 = 0 then below else above, exponent⟩

/-- Tries grids from one digit on; seventeen digits are always enough. -/
def shortestFrom (r : Rounding) (exponent : Int) : Nat → Scientific
  | 0 => ⟨0, 0⟩
  | fuel + 1 =>
    match onGrid? r exponent with
    | some s => if s.digits = 0 then shortestFrom r (exponent - 1) fuel else s.strip 20
    | none => shortestFrom r (exponent - 1) fuel

/-- The shortest decimal that reads back. -/
def shortest (r : Rounding) : Scientific := shortestFrom r (leadingExponent r) 18

/-! ## Its text -/

/-- The digits of a number, at least `width` of them. -/
def padded (width n : Nat) : String :=
  let s := toString n
  "".pushn '0' (width - s.length) ++ s

/-- Numbers from 0.0001 on and below ten to the power of 16 are written with a point and at
least one digit behind it. All others are written with one digit before the point and an
exponent of at least two digits with a sign. -/
def Scientific.text (s : Scientific) : String :=
  let ds := toString s.digits
  let point := (ds.length : Int) + s.exponent
  if -4 < point ∧ point ≤ 16 then
    if point ≤ 0 then "0." ++ "".pushn '0' (-point).toNat ++ ds
    else if (ds.length : Int) ≤ point then ds ++ "".pushn '0' (point - ds.length).toNat ++ ".0"
    else
      String.ofList (ds.toList.take point.toNat) ++ "." ++
        String.ofList (ds.toList.drop point.toNat)
  else
    let exponent := point - 1
    let mantissa :=
      match ds.toList with
      | [d] => String.ofList [d]
      | d :: r => String.ofList (d :: '.' :: r)
      | [] => ""
    mantissa ++ "e" ++ (if exponent < 0 then "-" else "+") ++ padded 2 exponent.natAbs

/-- How the values that have no digits are written. -/
structure Names where
  infinity : String
  indefinite : String

def text (names : Names) (x : Float) : String :=
  match Double.ofFloat x with
  | .indefinite => names.indefinite
  | .infinite negative => (if negative then "-" else "") ++ names.infinity
  | .zero negative => if negative then "-0.0" else "0.0"
  | .finite negative r => (if negative then "-" else "") ++ (shortest r).text

end DocCheck.Decimal
