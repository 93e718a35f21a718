import DocCheck.Decimal.Binary

/-!
# Decimals with one place

A double rounded to one decimal place; a half goes to the even neighbour.
-/
namespace DocCheck.Decimal

/-- The whole number nearest to a quotient; a half goes to the even neighbour. -/
def roundDiv (num den : Nat) : Nat :=
  let q := num / den
  let r := num % den
  if 2 * r < den then q
  else if den < 2 * r then q + 1
  else if q % 2 = 0 then q else q + 1

/-- A double with one decimal place. -/
def onePlace (x : Float) : String :=
  let tenths := fun (negative : Bool) (n : Nat) =>
    (if negative then "-" else "") ++ toString (n / 10) ++ "." ++ toString (n % 10)
  match Double.ofFloat x with
  | .indefinite => "nan"
  | .infinite negative => if negative then "-inf" else "inf"
  | .zero negative => tenths negative 0
  | .finite negative r => tenths negative (roundDiv (r.num * 10) r.den)

end DocCheck.Decimal
