import DocCheck.Config.Value

/-!
# Days and moments in YAML

A day, or a day with a time. The parts are digits, with at most one fraction, and
at the end there may be a distance from universal time.
-/
namespace DocCheck.Yaml

/-- A reader of a part of a text: the number that digits stand for, and the rest. There are at
least `least` digits and at most `most`, as many as possible. -/
def digits? (least most : Nat) (cs : List Char) : Option (Nat × List Char) :=
  let ds := (cs.takeWhile Char.isDigit).take most
  if ds.length < least then none
  else some (ds.foldl (fun n d => 10 * n + (d.toNat - 0x30)) 0, cs.drop ds.length)

def pass? (c : Char) : List Char → Option (List Char)
  | d :: r => if c = d then some r else none
  | [] => none

/-- A blank or a tab, which may stand between a day, its time and its zone. -/
def isTabOrSpace (c : Char) : Bool := c == ' ' || c == '\t'

/-- The distance from universal time in minutes, behind the time. The whole text must be read. -/
def zone? (cs : List Char) : Option (Option Int) :=
  match cs.dropWhile isTabOrSpace with
  | [] => if cs.isEmpty then some none else none
  | ['Z'] => some (some 0)
  | sign :: r => do
    if sign ≠ '+' ∧ sign ≠ '-' then none
    else
      let (hours, r) ← digits? 1 2 r
      let minutes ←
        match r with
        | [] => some 0
        | ':' :: r => do
          let (minutes, r) ← digits? 2 2 r
          if r.isEmpty then some minutes else none
        | _ => none
      let n : Int := 60 * hours + minutes
      some (some (if sign = '-' then -n else n))

/-- The microseconds of a fraction of a second, and the rest. -/
def fraction (cs : List Char) : Nat × List Char :=
  match cs with
  | '.' :: r =>
    let ds := (r.takeWhile Char.isDigit).take 6
    let n := ds.foldl (fun n d => 10 * n + (d.toNat - 0x30)) 0
    (n * Nat.pow 10 (6 - ds.length), r.dropWhile Char.isDigit)
  | r => (0, r)

/-- The time behind a day. -/
def clock? (cs : List Char) : Option Clock := do
  let r ←
    match cs with
    | 'T' :: r => some r
    | 't' :: r => some r
    | c :: r => if isTabOrSpace c then some (r.dropWhile isTabOrSpace) else none
    | [] => none
  let (hour, r) ← digits? 1 2 r
  let (minute, r) ← digits? 2 2 (← pass? ':' r)
  let (second, r) ← digits? 2 2 (← pass? ':' r)
  let (micro, r) := fraction r
  some ⟨hour, minute, second, micro, ← zone? r⟩

/-- A day, perhaps with a time, as it is written. -/
def moment? (cs : List Char) : Option (Day × Option Clock) := do
  let (year, r) ← digits? 4 4 cs
  let (month, r) ← digits? 1 2 (← pass? '-' r)
  let (day, r) ← digits? 1 2 (← pass? '-' r)
  if r.isEmpty then some (⟨year, month, day⟩, none)
  else some (⟨year, month, day⟩, some (← clock? r))

/-- The scalar is written as a day or moment: a day alone has all its digits. -/
def isMoment (cs : List Char) : Bool :=
  match moment? cs with
  | some (_, none) => cs.length == 10
  | some (_, some _) => true
  | none => false

def monthLength (year month : Nat) : Nat :=
  if month = 2 then
    if year % 4 = 0 ∧ (year % 100 ≠ 0 ∨ year % 400 = 0) then 29 else 28
  else if [4, 6, 9, 11].contains month then 30
  else 31

def isDay (d : Day) : Bool :=
  1 ≤ d.year && 1 ≤ d.month && d.month ≤ 12 && 1 ≤ d.day && d.day ≤ monthLength d.year d.month

/-- The time is one of a day, less than a day away from universal time. -/
def isClock (t : Clock) : Bool :=
  t.hour < 24 && t.minute < 60 && t.second < 60 && (t.offset.all fun n => n.natAbs < 1440)

end DocCheck.Yaml
