import DocCheck.Config.Order
import DocCheck.Text.Base64
import DocCheck.Yaml.Kind

/-!
# From YAML to raw values

The value of a document. Of keys that are the same the first one is kept, with
the value of the last. What a mapping takes over from others comes before its
own entries.
-/
namespace DocCheck.Yaml

inductive Error where
  /-- The text is not well formed, or a node is of no known kind. -/
  | malformed
  /-- A word is tagged as a truth value and is none. -/
  | noTruth (word : String)
  /-- A scalar is tagged or written as a number and is none. -/
  | noNumber
  /-- A scalar is tagged as a number and is empty. -/
  | emptyNumber
  /-- A scalar is tagged as a moment and is not written as one. -/
  | noMoment
  /-- A scalar is written as a day or moment that is not in the calendar. -/
  | noDay
deriving DecidableEq, Repr

/-- A value, or the error if there is none. -/
def orError {α : Type} (e : Error) : Option α → Except Error α
  | some a => .ok a
  | none => .error e

def scalarValue (kind : Kind) (text : String) : Except Error Value :=
  match kind with
  | .null => .ok .null
  | .text => .ok (.str text)
  | .bool => (orError (.noTruth text) (truth? (text.map Char.toLower))).map .bool
  | .integer =>
    if text.isEmpty then .error .emptyNumber
    else (orError .noNumber (toInteger? text.toList)).map .int
  | .fraction =>
    if text.isEmpty then .error .emptyNumber
    else (orError .noNumber (toFraction? text.toList)).map .float
  | .bytes =>
    if text.toList.all fun c => c.toNat < 128 then
      (orError .malformed (Text.Base64.decode text.toList)).map .bytes
    else .error .malformed
  | .moment => do
    match ← orError .noMoment (moment? text.toList) with
    | (d, none) => if isDay d then .ok (.day d) else .error .noDay
    | (d, some t) => if isDay d && isClock t then .ok (.moment d t) else .error .noDay
  | _ => .error .malformed

def putEntry (entry : Value × Value) : List (Value × Value) → List (Value × Value)
  | [] => [entry]
  | (k, v) :: rest =>
    if k.sameKey entry.1 then (k, entry.2) :: rest else (k, v) :: putEntry entry rest

/-- The mapping that results from writing the entries in order. -/
def mappingOf (entries : List (Value × Value)) : List (Value × Value) :=
  entries.foldl (fun done e => putEntry e done) []

mutual

def value : Node → Except Error Value
  | .scalar tag plain text => scalarValue (Node.scalar tag plain text).kind text
  | .sequence tag items =>
    match (Node.sequence tag []).kind with
    | .sequence => do .ok (.list (← values items))
    | .pairs => do .ok (.list (← pairs items))
    | _ => .error .malformed
  | .mapping tag entries => do
    match (Node.mapping tag []).kind with
    | .mapping =>
      let (taken, own) ← entriesOf entries
      .ok (.map (mappingOf (taken ++ own)))
    | .set =>
      let (taken, own) ← entriesOf entries
      .ok (.set ((mappingOf (taken ++ own)).map Prod.fst))
    | _ => .error .malformed

def values : List Node → Except Error (List Value)
  | [] => .ok []
  | n :: ns => do
    let v ← value n
    .ok (v :: (← values ns))

/-- The values of nodes that are mappings of one entry each. -/
def pairs : List Node → Except Error (List Value)
  | [] => .ok []
  | n :: ns => do
    let p ← pairOf n
    .ok (p :: (← pairs ns))

/-- The key and the value of a mapping of one entry. -/
def pairOf : Node → Except Error Value
  | .mapping _ entries => pairOfEntries entries
  | _ => .error .malformed

/-- The key and the value of the only entry. -/
def pairOfEntries : List (Node × Node) → Except Error Value
  | [] => .error .malformed
  | (k, v) :: more => do
    if more.isEmpty then
      let k ← value k
      .ok (.pair k (← value v))
    else .error .malformed

/-- The entries of a mapping: those that it takes over from others, and its own. -/
def entriesOf : List (Node × Node) → Except Error (List (Value × Value) × List (Value × Value))
  | [] => .ok ([], [])
  | (k, v) :: rest => do
    if k.kind = .merge then
      let here ← taken v
      let (more, own) ← entriesOf rest
      .ok (here ++ more, own)
    else
      let key ← keyOf k
      let item ← value v
      let (more, own) ← entriesOf rest
      .ok (more, (key, item) :: own)

/-- The value of a key, which is a scalar. -/
def keyOf : Node → Except Error Value
  | .scalar tag plain text =>
    match (Node.scalar tag plain text).kind with
    | .default => .ok (.str text)
    | kind => scalarValue kind text
  | _ => .error .malformed

/-- The entries that are taken over from a mapping, or from several, the last ones first. -/
def taken : Node → Except Error (List (Value × Value))
  | .scalar _ _ _ => .error .malformed
  | .sequence _ items => takenOfAll items
  | .mapping _ entries => do
    let (taken, own) ← entriesOf entries
    .ok (taken ++ own)

/-- The entries that are taken over from several mappings, the last ones first. -/
def takenOfAll : List Node → Except Error (List (Value × Value))
  | [] => .ok []
  | n :: ns => do
    let here ← takenOfOne n
    .ok ((← takenOfAll ns) ++ here)

/-- The entries of a mapping that is one of several. -/
def takenOfOne : Node → Except Error (List (Value × Value))
  | .mapping _ entries => do
    let (taken, own) ← entriesOf entries
    .ok (taken ++ own)
  | _ => .error .malformed

end

/-- The value of a text; a text without a document has none. -/
def load (text : String) : Except Error (Option Value) := do
  match ← orError .malformed (document? text.toList) with
  | some n => .ok (some (← value n))
  | none => .ok none

end DocCheck.Yaml
