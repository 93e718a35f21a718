import DocCheck.Config.Load
import DocCheck.Files.Tree

/-!
# Finding the configuration

A run is configured by the file that it names, or else by a file of a fixed name
in the directory where it starts. Without that file all rules are disabled
(SPEC_FULL 6, configuration files).
-/
namespace DocCheck.Config

/-- The name of the file that configures runs in its directory. -/
def defaultName : String := ".jsdoclint.yml"

inductive FileError where
  | missing (cause : Missing)
  | isDirectory
  | unreadable
  /-- The bytes of the file are no text. -/
  | isNoText
  | load (path : String) (e : LoadError)

/-- The configuration in the file at a path, which messages show as `shown`. -/
def ofFile (reader : Reader) (disk : Disk) (path shown : String) : Except FileError Config :=
  match disk path with
  | .error cause => .error (.missing cause)
  | .ok (.directory _) => .error .isDirectory
  | .ok (.file none) => .error .unreadable
  | .ok (.file (some bytes)) =>
    match String.fromUTF8? bytes with
    | none => .error .isNoText
    | some text =>
      match ofText reader text with
      | .ok config => .ok config
      | .error e => .error (.load shown e)

/-- The configuration of a run; `directory` is the path of where it starts, as messages show it. -/
def find (reader : Reader) (disk : Disk) (named : Option Path) (directory : Path) :
    Except FileError Config :=
  match named with
  | some path => ofFile reader disk (toString path) (toString path)
  | none =>
    match disk defaultName with
    | .ok (.file _) => ofFile reader disk defaultName (toString (directory.below [defaultName]))
    | _ => .ok .allDisabled

/-- The error is one of the configuration itself, and can be told to whoever wrote it. -/
def LoadError.isTold : LoadError → Bool
  | .unread (.failed _) => false
  | .options e => e.isTold
  | _ => true

/-- What is told about an error, if it can be. -/
def FileError.message? : FileError → Option String
  | .load path e => if e.isTold then some ("Invalid configuration: " ++ e.message path) else none
  | _ => none

end DocCheck.Config
