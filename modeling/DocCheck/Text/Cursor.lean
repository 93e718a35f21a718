/-!
# Cursors

A cursor is a place in a text together with the characters that follow it. Which
characters end a line, and how many columns the others take, is up to the
`Measure`.

Results:

* `Cursor.rest_skip`: skipping characters drops them from what follows.
-/
namespace DocCheck.Text

/-- How places in a text are counted. -/
structure Measure where
  endsLine : Char → Bool
  /-- The columns that a character takes. -/
  width : Char → Nat

/-- A place in a text. -/
structure Cursor (m : Measure) where
  /-- The characters that follow. -/
  rest : List Char
  /-- The number of characters before. -/
  offset : Nat
  row : Nat
  column : Nat
deriving Inhabited

namespace Cursor

variable {m : Measure}

def ofText (cs : List Char) : Cursor m := ⟨cs, 0, 0, 0⟩

def next (c : Cursor m) : Cursor m :=
  match c.rest with
  | [] => c
  | d :: r =>
    if m.endsLine d then ⟨r, c.offset + 1, c.row + 1, 0⟩
    else ⟨r, c.offset + 1, c.row, c.column + m.width d⟩

def skip : Nat → Cursor m → Cursor m
  | 0, c => c
  | n + 1, c => skip n c.next

theorem rest_next (c : Cursor m) : c.next.rest = c.rest.drop 1 := by
  unfold next
  split
  · rename_i h
    rw [h]
    rfl
  · rename_i d r h
    rw [h]
    split <;> rfl

theorem rest_skip (n : Nat) (c : Cursor m) : (c.skip n).rest = c.rest.drop n := by
  induction n generalizing c with
  | zero => simp [skip]
  | succ n ih => rw [skip, ih, rest_next, List.drop_drop, Nat.add_comm]

/-- The characters that satisfy a condition, and the place behind them. -/
def span (p : Char → Bool) (c : Cursor m) : List Char × Cursor m :=
  let taken := c.rest.takeWhile p
  (taken, c.skip taken.length)

def skipWhile (p : Char → Bool) (c : Cursor m) : Cursor m := (c.span p).2

def isAt (d : Char) (c : Cursor m) : Bool := c.rest.head? == some d

/-- The text from one place to a later one. -/
def textTo (start stop : Cursor m) : String :=
  String.ofList (start.rest.take (stop.offset - start.offset))

end Cursor

end DocCheck.Text
