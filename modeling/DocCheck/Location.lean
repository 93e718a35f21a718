/-!
# Places in a source text

A place is a line, counted from one, and a column, counted from zero. Places are
ordered as in reading: line by line, and by columns on a line (SPEC_FULL 3,
Finding).

Results:

* `Location.atOrBefore_refl`, `Location.atOrBefore.trans`: `atOrBefore` is an order.
-/
namespace DocCheck

/-- A place in a source text. -/
structure Location where
  line : Int
  column : Int
deriving DecidableEq, Repr, Inhabited

namespace Location

def start : Location := ⟨1, 0⟩

/-- A place is the same as another one or stands before it. -/
def atOrBefore (l m : Location) : Prop :=
  l.line < m.line ∨ l.line = m.line ∧ l.column ≤ m.column

instance (l m : Location) : Decidable (l.atOrBefore m) :=
  inferInstanceAs (Decidable (_ ∨ _ ∧ _))

theorem atOrBefore_refl (l : Location) : l.atOrBefore l := .inr ⟨rfl, Int.le_refl _⟩

theorem atOrBefore.trans {l m n : Location} (h : l.atOrBefore m) (h' : m.atOrBefore n) :
    l.atOrBefore n := by
  unfold atOrBefore at *
  omega

end Location

end DocCheck
