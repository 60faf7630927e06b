import WorkflowScript.Names
import WorkflowScript.Settings.Value

/-!
# Settings

What can be set: how names are resolved in target code, and what is
logged. Everything has a default, keys that nobody knows are ignored, and
a value of the wrong type is an error. A group of settings may be given as
a table by names or as an array in their order.
-/

namespace WorkflowScript

structure Settings where
  /-- Put in front of every name without a rename of its own. -/
  qualifier : Option String
  /-- Renames of single names. -/
  symbols : List (String × String)
  /-- The least level that is logged. -/
  logLevel : String
deriving Repr, DecidableEq

/-- Why settings could not be loaded. -/
inductive SettingsError where
  /-- No file of the name that was asked for. -/
  | missingFile (path : String)
  /-- A file of a name that no format belongs to. -/
  | unknownFormat (path : String)
  /-- A text that is not well formed. -/
  | malformed (origin : String)
  /-- A value of the wrong type. -/
  | wrongType (key : String)
deriving Repr, DecidableEq

/-- What is wrong about settings: the file, its text or a value. -/
inductive SettingsError.Kind where
  | file | parse | value
deriving Repr, DecidableEq

namespace SettingsError

def kind : SettingsError → Kind
  | missingFile _ | unknownFormat _ => .file
  | malformed _ => .parse
  | wrongType _ => .value

def message : SettingsError → String
  | missingFile path => "configuration file \"" ++ path ++ "\" not found"
  | unknownFormat path =>
    "configuration file \"" ++ path ++ "\" is not of a registered file format"
  | malformed origin => "malformed TOML in " ++ origin
  | wrongType key => "invalid type for key " ++ key

end SettingsError

namespace Settings

open Settings (Value)

def defaultLogLevel : String := "info"

/-- The layer below all others. -/
def defaults : Layer := [([.key "logging", .key "level"], .text defaultLogLevel)]

/-- A text that may be missing. -/
def text? (key : String) : Option Value → Except SettingsError (Option String)
  | none | some .nothing => .ok none
  | some (.text s) => .ok (some s)
  | some _ => .error (.wrongType key)

/-- A text with a default. -/
def textOr (default key : String) : Option Value → Except SettingsError String
  | none => .ok default
  | some (.text s) => .ok s
  | some _ => .error (.wrongType key)

/-- A table of texts; without a value it is empty. -/
def texts (key : String) : Option Value → Except SettingsError (List (String × String))
  | none => .ok []
  | some (.table entries) =>
    entries.mapM fun (name, v) =>
      match v with
      | .text s => .ok (name, s)
      | _ => .error (.wrongType (key ++ "." ++ name))
  | some _ => .error (.wrongType key)

/-- The value of each field of a group of settings, looked up by name in a
table and by place in an array. -/
def fields (key : String) (names : List String) :
    Option Value → Except SettingsError (List (Option Value))
  | none => .ok (names.map fun _ => none)
  | some (.table entries) => .ok (names.map fun name => entries.lookup name)
  | some (.array items) => .ok ((List.range names.length).map (items[·]?))
  | some _ => .error (.wrongType key)

/-- The settings that a value stands for. -/
def ofValue (v : Value) : Except SettingsError Settings := do
  let generate ← fields "generate" ["prefix", "symbols"] (v.get? "generate")
  let qualifier ← text? "generate.prefix" generate[0]?.join
  let symbols ← texts "generate.symbols" generate[1]?.join
  let logging ← fields "logging" ["level"] (v.get? "logging")
  let logLevel ← textOr defaultLogLevel "logging.level" logging[0]?.join
  pure ⟨qualifier, symbols, logLevel⟩

/-- The symbol table that target code is generated with. -/
def symbolTable (s : Settings) : SymbolTable := ⟨s.symbols, s.qualifier⟩

end Settings

end WorkflowScript
