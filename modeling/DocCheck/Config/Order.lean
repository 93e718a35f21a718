import DocCheck.Config.Value

/-!
# Comparing raw values

Values of one sort can be put in order: texts by code points, numbers by size
(a truth value counts as zero or one), bytes, days, and moments with or without
a known distance from universal time. Values of different sorts cannot.
-/
namespace DocCheck.Value

/-- The values that a value can be put in order with. -/
inductive Family where
  | text | number | bytes | day | localMoment | worldMoment
deriving DecidableEq, Repr

/-- The family of a value; a value without one can be compared with nothing. -/
def family? : Value → Option Family
  | str _ => some .text
  | bool _ => some .number
  | int _ => some .number
  | float _ => some .number
  | bytes _ => some .bytes
  | day _ => some .day
  | moment _ t => some (if t.offset.isSome then .worldMoment else .localMoment)
  | _ => none

/-! ## Numbers -/

/-- A number as a quotient, or one of the values beyond all quotients. -/
inductive Size where
  | indefinite
  | low
  | quotient (num : Int) (den : Nat)
  | high

def size? : Value → Option Size
  | bool b => some (.quotient (if b then 1 else 0) 1)
  | int n => some (.quotient n 1)
  | float x =>
    match Decimal.Double.ofFloat x with
    | .indefinite => some .indefinite
    | .infinite negative => some (if negative then .low else .high)
    | .zero _ => some (.quotient 0 1)
    | .finite negative r => some (.quotient (if negative then -(r.num : Int) else r.num) r.den)
  | _ => none

def Size.below : Size → Size → Bool
  | .indefinite, _ => false
  | _, .indefinite => false
  | .low, .low => false
  | .low, _ => true
  | .quotient _ _, .low => false
  | .quotient a b, .quotient c d => a * d < c * b
  | .quotient _ _, .high => true
  | .high, _ => false

def Size.same : Size → Size → Bool
  | .indefinite, .indefinite => true
  | .low, .low => true
  | .quotient a b, .quotient c d => a * d == c * b
  | .high, .high => true
  | _, _ => false

/-! ## All values -/

/-- The parts of a list in the order of the list, the first difference deciding. -/
def listBelow : List Int → List Int → Bool
  | _, [] => false
  | [], _ :: _ => true
  | a :: as, b :: bs => a < b || (a == b && listBelow as bs)

/-- The days before the first of March of the year. -/
def daysBefore (year : Int) : Int := 365 * year + year / 4 - year / 100 + year / 400

def dayNumber (d : Day) : Int :=
  let months := ((d.month : Int) + 9) % 12
  let year := (d.year : Int) - months / 10
  daysBefore year + (months * 306 + 5) / 10 + d.day

/-- A moment in microseconds, of universal time if its distance from it is known. -/
def instant (d : Day) (t : Clock) : Int :=
  (((dayNumber d * 24 + t.hour) * 60 + t.minute - t.offset.getD 0) * 60 + t.second) * 1000000 +
    t.micro

/-- The parts of a day, the year first, so that their order is that of the days. -/
def dayKey (d : Day) : List Int := [d.year, d.month, d.day]

/-- The first value is below the second; both are of one sort. -/
def precedes : Value → Value → Bool
  | str s, str t => s < t
  | bytes s, bytes t => listBelow (s.map fun b => b.toNat) (t.map fun b => b.toNat)
  | day d, day e => listBelow (dayKey d) (dayKey e)
  | moment d t, moment e u => instant d t < instant e u
  | v, w =>
    match size? v, size? w with
    | some a, some b => a.below b
    | _, _ => false

/-- Two keys are the same key of a mapping. -/
def sameKey : Value → Value → Bool
  | null, null => true
  | str s, str t => s == t
  | bytes s, bytes t => s == t
  | day d, day e => d == e
  | moment d t, moment e u => t.offset.isSome == u.offset.isSome && instant d t == instant e u
  | v, w =>
    match size? v, size? w with
    | some a, some b => a.same b
    | _, _ => false

/-- Puts a value before the first one that it is below of. -/
def insertSorted (v : Value) : List Value → List Value
  | [] => [v]
  | w :: ws => if v.precedes w then v :: w :: ws else w :: insertSorted v ws

/-- Puts values in order. Nothing when two of them cannot be compared. -/
def sorted? : List Value → Option (List Value)
  | [] => some []
  | [v] => some [v]
  | v :: vs =>
    match v.family? with
    | none => none
    | some s =>
      if vs.all fun w => w.family? == some s then some ((v :: vs).foldr insertSorted [])
      else none

end DocCheck.Value
