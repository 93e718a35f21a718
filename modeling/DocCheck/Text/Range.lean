/-!
# Tables of code points

A character class of a standard is kept as a list of closed intervals of code
points, and a character is in the class when some interval holds its number.
-/
namespace DocCheck.Text

/-- Some interval of the table holds `n`. -/
def covers (table : List (Nat × Nat)) (n : Nat) : Bool :=
  table.any fun (low, high) => low ≤ n && n ≤ high

end DocCheck.Text
