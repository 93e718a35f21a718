import DocCheck.Decimal.Reader
import DocCheck.Decimal.Shortest
import DocCheck.Text.Quoted

/-!
# Raw configuration values

What a configuration holds before its options are looked at. Messages show a
value by its `text`; where a key stands in a sentence it is shown plainly.

Limitations: a value is a tree, so none holds itself, and a stack that runs out while
one is written is not modelled.
-/
namespace DocCheck

structure Day where
  year : Nat
  month : Nat
  day : Nat
deriving DecidableEq, Repr

/-- A time of day to the microsecond; `offset` are the minutes ahead of universal time. -/
structure Clock where
  hour : Nat
  minute : Nat
  second : Nat
  micro : Nat
  offset : Option Int
deriving DecidableEq, Repr

/-- A raw configuration value. A mapping keeps its keys in order. -/
inductive Value where
  | null
  | bool (b : Bool)
  | int (n : Int)
  | float (x : Float)
  | str (s : String)
  | bytes (bs : List UInt8)
  | day (d : Day)
  | moment (d : Day) (t : Clock)
  | list (items : List Value)
  /-- Two values that belong together. -/
  | pair (first second : Value)
  | set (members : List Value)
  | map (entries : List (Value × Value))
deriving Inhabited

namespace Value

/-- How messages write the doubles that have no digits. -/
def floatNames : Decimal.Names := ⟨"inf", "nan"⟩

def boolText (b : Bool) : String := if b then "True" else "False"

/-! ## Days and moments -/

/-- The distance from universal time in a message. -/
def zoneText (minutes : Int) : String :=
  if minutes = 0 then "datetime.timezone.utc"
  else
    let seconds := minutes * 60
    let delta :=
      if seconds < 0 then "days=-1, seconds=" ++ toString (86400 + seconds)
      else "seconds=" ++ toString seconds
    "datetime.timezone(datetime.timedelta(" ++ delta ++ "))"

def dayText (d : Day) : String :=
  "datetime.date(" ++ ", ".intercalate ([d.year, d.month, d.day].map toString) ++ ")"

/-- A moment in a message. Seconds and microseconds are left out when there are none. -/
def momentText (d : Day) (t : Clock) : String :=
  let tail :=
    if t.micro ≠ 0 then [t.second, t.micro] else if t.second ≠ 0 then [t.second] else []
  let zone :=
    match t.offset with
    | none => []
    | some minutes => ["tzinfo=" ++ zoneText minutes]
  "datetime.datetime(" ++
    ", ".intercalate
      (([d.year, d.month, d.day, t.hour, t.minute] ++ tail).map toString ++ zone) ++ ")"

/-- A day as it stands in a sentence. -/
def dayPlain (d : Day) : String :=
  Decimal.padded 4 d.year ++ "-" ++ Decimal.padded 2 d.month ++ "-" ++ Decimal.padded 2 d.day

def momentPlain (d : Day) (t : Clock) : String :=
  let two := Decimal.padded 2
  let micro := if t.micro = 0 then "" else "." ++ Decimal.padded 6 t.micro
  let zone :=
    match t.offset with
    | none => ""
    | some minutes =>
      (if minutes < 0 then "-" else "+") ++ two (minutes.natAbs / 60) ++ ":" ++
        two (minutes.natAbs % 60)
  dayPlain d ++ " " ++ two t.hour ++ ":" ++ two t.minute ++ ":" ++ two t.second ++ micro ++ zone

/-! ## Text of a value -/

mutual

/-- A value as a message shows it. -/
def text : Value → String
  | null => "None"
  | bool b => boolText b
  | int n => toString n
  | float x => Decimal.text floatNames x
  | str s => Text.quoted s
  | bytes bs => Text.quotedBytes bs
  | day d => dayText d
  | moment d t => momentText d t
  | list items => Text.bracketed (texts items)
  | pair first second => "(" ++ text first ++ ", " ++ text second ++ ")"
  | set [] => "set()"
  | set members => "\x7b" ++ ", ".intercalate (texts members) ++ "\x7d"
  | map entries => "\x7b" ++ ", ".intercalate (entryTexts entries) ++ "\x7d"

def texts : List Value → List String
  | [] => []
  | v :: vs => text v :: texts vs

def entryTexts : List (Value × Value) → List String
  | [] => []
  | (k, v) :: es => (text k ++ ": " ++ text v) :: entryTexts es

end

/-- A value as it stands in a sentence. -/
def plain : Value → String
  | str s => s
  | day d => dayPlain d
  | moment d t => momentPlain d t
  | v => text v

/-! ## Numbers without a text -/

mutual

/-- The value has a text: no whole number in it is too long to be written. -/
def isWritable : Value → Bool
  | int n => decide (n.natAbs < 10 ^ Decimal.maxDigits)
  | list items => areWritable items
  | pair first second => isWritable first && isWritable second
  | set members => areWritable members
  | map entries => entriesWritable entries
  | _ => true

def areWritable : List Value → Bool
  | [] => true
  | v :: vs => isWritable v && areWritable vs

def entriesWritable : List (Value × Value) → Bool
  | [] => true
  | (k, v) :: es => isWritable k && isWritable v && entriesWritable es

end

end Value

end DocCheck
