import WorkflowScript.Event
import WorkflowScript.Files
import WorkflowScript.Settings.Basic
import WorkflowScript.Settings.Environment
import WorkflowScript.Settings.Toml
import WorkflowScript.Text.Utf8

/-!
# Loading settings

The layers, from the bottom up: the defaults, a settings file, settings
given as text, the environment. The file is the one that was asked for,
else the one that the environment names, else `pmsl.toml` if it is there.
A file that was asked for must exist, and its name must end in `.toml`,
which is added to a name that no file has.
-/

namespace WorkflowScript

namespace Settings

/-- The file that is read if no other is asked for. -/
def defaultFile : String := "pmsl.toml"

/-- The text of a settings file: a byte-order mark is dropped, and what is
no character is replaced. -/
def fileText (bytes : List UInt8) : String :=
  let text := Text.Utf8.decodeLenient bytes
  match text.toList with
  | '\uFEFF' :: rest => String.ofList rest
  | _ => text

variable {m : Type → Type} [Monad m]

/-- What the names of settings files end in. -/
def fileSuffix : String := ".toml"

/-- The text of the file of that name, or of the name with `.toml` behind
it. -/
def readFile? (read : FileReader m) (path : String) : m (Option String) := do
  match ← read path with
  | .ok bytes => pure (some (fileText bytes))
  | .error _ =>
    match FilePath.append? path fileSuffix with
    | none => pure none
    | some path =>
      match ← read path with
      | .ok bytes => pure (some (fileText bytes))
      | .error _ => pure none

/-- The layer of a file that must exist. -/
def explicitLayer (read : FileReader m) (path : String) : m (Except SettingsError Layer) := do
  match ← read path with
  | .ok _ =>
    if FilePath.extension? path ≠ some "toml" then return .error (.unknownFormat path)
  | .error _ => pure ()
  match ← readFile? read path with
  | none => return .error (.missingFile path)
  | some text =>
    match Toml.layer? text with
    | some layer => return .ok layer
    | none => return .error (.malformed path)

/-- The layer of the default file, empty if there is none. -/
def defaultLayer (read : FileReader m) : m (Except SettingsError Layer) := do
  match ← readFile? read defaultFile with
  | none => return .ok []
  | some text =>
    match Toml.layer? text with
    | some layer => return .ok layer
    | none => return .error (.malformed defaultFile)

/-- The layer of settings given as text, empty if there are none. -/
def inlineLayer : Option String → Except SettingsError Layer
  | none => .ok []
  | some text =>
    match Toml.layer? text with
    | some layer => .ok layer
    | none => .error (.malformed "inline settings")

/-- Loads the settings, and reports that it did. -/
def load (read : FileReader m) (env : Environment) (path inline : Option String) :
    m (Except SettingsError (Settings × Event)) := do
  let explicit := path <|> env.lookup pathVariable
  let file ← match explicit with
    | some path => explicitLayer read path
    | none => defaultLayer read
  return do
    let file ← file
    let inline ← inlineLayer inline
    let settings ← ofValue (mergeLayers [defaults, file, inline, environmentLayer env])
    pure (settings, .loadedSettings explicit settings.symbols.length)

end Settings

end WorkflowScript
