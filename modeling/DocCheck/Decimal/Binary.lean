/-!
# Binary fractions

A finite double is a whole number times a power of two. Here it is taken apart
exactly, with the interval of the reals that round to it.
-/
namespace DocCheck.Decimal

/-- A positive quotient of whole numbers, between two others with the same denominator.
The reals between `low` and `high` over `den` round to `num` over `den`. -/
structure Rounding where
  num : Nat
  low : Nat
  high : Nat
  den : Nat
  /-- The ends of the interval round to the number too. -/
  closed : Bool

/-- A double by its kind: a sign goes with all but an indefinite value. -/
inductive Double where
  | indefinite
  | infinite (negative : Bool)
  | zero (negative : Bool)
  | finite (negative : Bool) (value : Rounding)

/-- The number `m` times two to the power of `e - 2`, with two or four units of that size
to its neighbours: a power of two has its lower neighbour at half the distance. -/
def Rounding.ofScaled (m : Nat) (e : Int) (isPower closed : Bool) : Rounding :=
  let low := 4 * m - (if isPower then 1 else 2)
  let high := 4 * m + 2
  if 2 ≤ e then
    let f := Nat.pow 2 (e - 2).toNat
    ⟨4 * m * f, low * f, high * f, 1, closed⟩
  else ⟨4 * m, low, high, Nat.pow 2 (2 - e).toNat, closed⟩

/-- The bit above the fraction, which is not stored: two to the power of 52. -/
def hiddenBit : Nat := 1 <<< 52

/-- Takes a double apart by its 64 bits: a sign, eleven bits of exponent, and 52 of fraction. -/
def Double.ofBits (bits : Nat) : Double :=
  let negative := bits.testBit 63
  let exponent : Nat := (bits >>> 52) % 2048
  let fraction : Nat := bits % hiddenBit
  if exponent = 2047 then
    if fraction = 0 then .infinite negative else .indefinite
  else if exponent = 0 then
    if fraction = 0 then .zero negative
    else .finite negative (.ofScaled fraction (-1074) false (fraction % 2 == 0))
  else
    .finite negative (.ofScaled (hiddenBit + fraction) ((exponent : Int) - 1075)
      (fraction == 0 && exponent != 1) (fraction % 2 == 0))

def Double.ofFloat (x : Float) : Double := .ofBits x.toBits.toNat

end DocCheck.Decimal
