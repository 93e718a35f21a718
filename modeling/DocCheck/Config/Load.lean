import DocCheck.Config.Resolve
import DocCheck.Text.Newline

/-!
# Reading a configuration file

The options stand at the top of the file or under the key `jsDoc`. A file
without a value enables nothing. What gives the value of a text comes from outside:
a `Reader` either gives one, or rejects the text as malformed, or fails at it
(SPEC_FULL 6, configuration files).
-/
namespace DocCheck.Config

inductive ReadError where
  /-- The text is malformed; `detail` says where and how. -/
  | malformed (detail : String)
  /-- The reader fails at the text, and nothing is told. -/
  | failed (cause : String)
deriving DecidableEq, Repr

/-- What gives the value of a text; a text without a value has the value `null`. -/
abbrev Reader := String → Except ReadError Value

inductive LoadError where
  | unread (e : ReadError)
  | topIsNoMapping
  | sectionIsNoMapping
  | options (e : Error)

def sectionKey : String := "jsDoc"

/-- The options of the value of a file. -/
def section? : Value → Except LoadError (List (Value × Value))
  | .map entries =>
    match valueOf? sectionKey entries with
    | none => .ok entries
    | some (.map options) => .ok options
    | some _ => .error .sectionIsNoMapping
  | _ => .error .topIsNoMapping

/-- The configuration that a text describes. -/
def ofText (reader : Reader) (text : String) : Except LoadError Config :=
  match reader (String.ofList (Text.unifyNewlines text.toList)) with
  | .error e => .error (.unread e)
  | .ok .null => .ok .allDisabled
  | .ok v => do
    match resolve (← section? v) with
    | .ok config => .ok config
    | .error e => .error (.options e)

def LoadError.message (path : String) : LoadError → String
  | .unread (.malformed detail) => path ++ ": invalid YAML: " ++ detail
  | .unread (.failed cause) => cause
  | .topIsNoMapping => path ++ ": top level must be a mapping"
  | .sectionIsNoMapping => path ++ ": '" ++ sectionKey ++ "' must be a mapping"
  | .options e => e.message

end DocCheck.Config
