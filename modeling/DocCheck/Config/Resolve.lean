import DocCheck.Config.Basic
import DocCheck.Config.Order
import DocCheck.Text.Lower

/-!
# From raw values to a configuration

Every option may be left out and is then disabled. Unknown keys are looked for
first, then the options are taken one by one in the order of the rules, and last
the two options that exclude each other (SPEC_FULL 6 and 7, configuration
resolution).
-/
namespace DocCheck.Config

inductive Error where
  | unknownOptions (keys : List Value)
  | invalidChoice (rule : RuleId) (value : Value)
  | unknownAnnotationKeys (keys : List Value)
  | invalidPreset (value : Value)
  | extraIsNoMapping
  | invalidExtra (tag value : Value)
  | bothNewlineRules
  /-- There are unknown keys, and they cannot be put in order. -/
  | incomparableKeys
  /-- A whole number is too long to be written. -/
  | tooManyDigits

def nameList (names : List String) : String := Text.bracketed (names.map Text.quoted)

def valueList (values : List Value) : String := Text.bracketed (values.map Value.text)

def sortedOptionNames : List String :=
  (RuleId.all.map RuleId.name).mergeSort fun a b => !(b < a)

def acceptedNames : RuleId → List String
  | .checkAnnotations => "true" :: Preset.all.map Preset.name
  | r => "true" :: r.modes.map Mode.name

def Error.message : Error → String
  | unknownOptions keys =>
    "Unknown options " ++ valueList keys ++ ", must be among " ++ nameList sortedOptionNames
  | invalidChoice rule value =>
    rule.name ++ ": invalid value " ++ value.text ++ ", must be one of " ++
      nameList (acceptedNames rule)
  | unknownAnnotationKeys keys =>
    "checkAnnotations: unknown keys " ++ valueList keys ++ ", must be one of ['extra', 'preset']"
  | invalidPreset value =>
    "checkAnnotations: invalid preset " ++ value.text ++ ", must be one of " ++
      nameList (Preset.all.map Preset.name)
  | extraIsNoMapping =>
    "checkAnnotations.extra must be a mapping of tag name to true, false or 'some'"
  | invalidExtra tag value =>
    "checkAnnotations.extra: invalid value " ++ value.text ++ " for tag '" ++ tag.plain ++
      "', must be one of [false, true, 'some']"
  | bothNewlineRules =>
    "requireNewlineAfterDescription and disallowNewlineAfterDescription are mutually exclusive"
  | incomparableKeys => "the unknown keys cannot be put in order"
  | tooManyDigits => "a whole number has too many digits to be written"

/-- The values that an error shows. -/
def Error.values : Error → List Value
  | unknownOptions keys => keys
  | invalidChoice _ value => [value]
  | unknownAnnotationKeys keys => keys
  | invalidPreset value => [value]
  | invalidExtra tag value => [tag, value]
  | _ => []

/-- The error can be told to whoever wrote the configuration. -/
def Error.isTold : Error → Bool
  | incomparableKeys | tooManyDigits => false
  | _ => true

/-- The error that comes of telling an error: its values have to be written. -/
def Error.told (e : Error) : Error := if Value.areWritable e.values then e else .tooManyDigits

/-! ## Looking into a mapping -/

def valueOf? (name : String) : List (Value × Value) → Option Value
  | [] => none
  | (.str s, v) :: entries => if s = name then some v else valueOf? name entries
  | _ :: entries => valueOf? name entries

def isNamed (names : List String) : Value → Bool
  | .str s => names.contains s
  | _ => false

/-- The keys that are not among the names, in order. -/
def unknownKeys (names : List String) (entries : List (Value × Value)) :
    Except Error (List Value) :=
  match Value.sorted? ((entries.map Prod.fst).filter fun k => !isNamed names k) with
  | some keys => .ok keys
  | none => .error .incomparableKeys

/-! ## Choices -/

def resolveChoice (rule : RuleId) : Value → Except Error (Option Choice)
  | .null => .ok none
  | .bool false => .ok none
  | .bool true => .ok (some .on)
  | .str s =>
    match rule.modes.find? fun m => m.name = s with
    | some m => .ok (some (.mode m))
    | none => .error (.invalidChoice rule (.str s))
  | value => .error (.invalidChoice rule value)

/-- What a value says about a tag. -/
def requirement? : Value → Option Requirement
  | .bool false => some .noValue
  | .bool true => some .anyValue
  | .str s => if s = "some" then some .requiredValue else none
  | _ => none

/-- The requirements of tags; their names are taken in lower case. -/
def resolveTags : List (Value × Value) → Except Error (List (String × Requirement))
  | [] => .ok []
  | (tag, value) :: entries =>
    match requirement? value with
    | none => .error (.invalidExtra tag value)
    | some r =>
      if tag.isWritable then do .ok ((Text.lower tag.plain, r) :: (← resolveTags entries))
      else .error .tooManyDigits

/-- The tags that a configuration adds. -/
def resolveExtra : Value → Except Error TagTable
  | .null => .ok []
  | .map entries => do .ok (Assoc.ofList (← resolveTags entries))
  | _ => .error .extraIsNoMapping

def resolvePreset : Value → Except Error (Option Preset)
  | .null => .ok none
  | .str s =>
    match Preset.ofName? s with
    | some p => .ok (some p)
    | none => .error (.invalidPreset (.str s))
  | value => .error (.invalidPreset value)

/-- The choice that a value makes for the known tags. -/
def resolveAnnotations : Value → Except Error (Option Choice)
  | .map entries => do
    match ← unknownKeys ["preset", "extra"] entries with
    | [] =>
      let preset ← resolvePreset ((valueOf? "preset" entries).getD .null)
      let extra ← resolveExtra ((valueOf? "extra" entries).getD .null)
      .ok (some (.annotations preset extra))
    | keys => .error (.unknownAnnotationKeys keys)
  | .null => .ok none
  | .bool false => .ok none
  | .bool true => .ok (some (.annotations none []))
  | .str s =>
    match Preset.ofName? s with
    | some p => .ok (some (.annotations (some p) []))
    | none => .error (.invalidChoice .checkAnnotations (.str s))
  | value => .error (.invalidChoice .checkAnnotations value)

/-- The choice for a rule; a rule that is not mentioned is disabled. -/
def resolveRule (entries : List (Value × Value)) (rule : RuleId) : Except Error (Option Choice) :=
  match valueOf? rule.name entries with
  | none => .ok none
  | some value =>
    if rule = .checkAnnotations then resolveAnnotations value else resolveChoice rule value

def resolveRules (entries : List (Value × Value)) :
    List RuleId → Except Error (List (RuleId × Choice))
  | [] => .ok []
  | rule :: rules => do
    let choice ← resolveRule entries rule
    let rest ← resolveRules entries rules
    match choice with
    | some c => .ok ((rule, c) :: rest)
    | none => .ok rest

/-- The configuration that a mapping describes, if its errors need not be told. -/
def resolveEntries (entries : List (Value × Value)) : Except Error Config := do
  match ← unknownKeys (RuleId.all.map RuleId.name) entries with
  | [] =>
    let choices ← resolveRules entries RuleId.all
    let config : Config := ⟨fun r => Assoc.lookup r choices⟩
    if (config.get .requireNewlineAfterDescription).isSome ∧
        (config.get .disallowNewlineAfterDescription).isSome then
      .error .bothNewlineRules
    else .ok config
  | keys => .error (.unknownOptions keys)

/-- The configuration that a mapping describes. -/
def resolve (entries : List (Value × Value)) : Except Error Config :=
  (resolveEntries entries).mapError Error.told

end DocCheck.Config
