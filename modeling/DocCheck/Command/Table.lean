import DocCheck.Tag.Preset

/-!
# Tables of presets

A table has a title in the middle, a line of headings, and a line for each row.
Columns are as wide as their longest cell (SPEC_FULL 6, command line).
-/
namespace DocCheck.Command

def blanks (n : Nat) : String := String.ofList (List.replicate n ' ')

def padRight (width : Nat) (cell : String) : String := cell ++ blanks (width - cell.length)

def padLeft (width : Nat) (cell : String) : String := blanks (width - cell.length) ++ cell

/-- A text in the middle; an odd blank stands on the right. -/
def padBoth (width : Nat) (text : String) : String :=
  let spare := width - text.length
  blanks (spare / 2) ++ text ++ blanks (spare - spare / 2)

def widest (cells : List String) : Nat := (cells.map String.length).foldl max 0

/-- The lines of a table of two columns. The second one may stand at the right. -/
def table (title : String) (right : Bool) (rows : List (String × String)) : List String :=
  let first := widest (rows.map Prod.fst)
  let second := widest (rows.map Prod.snd)
  let pad := if right then padLeft else padRight
  padBoth (first + second + 4) title ::
    rows.map fun (a, b) => " " ++ padRight first a ++ "  " ++ pad second b ++ " "

/-- The table of all presets, with the number of tags of each. -/
def presetsTable : List String :=
  table "Presets" true
    (("preset", "tags") :: Preset.all.map fun p => (p.name, toString p.tags.length))

/-- The table of the tags of a preset, in alphabetical order. -/
def tagsTable (p : Preset) : List String :=
  let rows := p.tags.mergeSort fun a b => !(b.1 < a.1)
  table p.name false (("tag", "value") :: rows.map fun (tag, r) => ("@" ++ tag, r.name))

end DocCheck.Command
