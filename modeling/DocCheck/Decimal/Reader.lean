/-!
# Reading decimals

The parts of a number that is written with decimal digits.
-/
namespace DocCheck.Decimal

/-- Whole numbers with more digits than this are neither read nor written in decimal. -/
def maxDigits : Nat := 4300

/-- The number that decimal digits stand for. -/
def ofDigits (ds : List Char) : Nat := ds.foldl (fun n d => 10 * n + (d.toNat - 0x30)) 0

/-- The digits at the start of a text. -/
def spanDigits (cs : List Char) : List Char × List Char := cs.span Char.isDigit

/-- The exponent of a number, behind its digits; `none` if there is none. -/
def exponentPart : List Char → Option Int × List Char
  | c :: r =>
    let (negative, s) :=
      match r with
      | '-' :: s => (true, s)
      | '+' :: s => (false, s)
      | s => (false, s)
    let (ds, s) := spanDigits s
    if (c == 'e' || c == 'E') && !ds.isEmpty then
      let n : Int := ofDigits ds
      (some (if negative then -n else n), s)
    else (none, c :: r)
  | [] => (none, [])

/-- The double nearest to a whole number times a power of ten. Exponents that are so large or so
small that the result is beyond all doubles or below them are cut short. -/
def toFloat (digits : Nat) (exponent : Int) : Float :=
  if digits = 0 then 0
  else
    let places := (Nat.toDigits 10 digits).length
    if 400 < exponent + places then Float.ofScientific 1 false 400
    else if exponent + places < -400 then 0
    else Float.ofScientific digits (exponent < 0) exponent.natAbs

end DocCheck.Decimal
