import WorkflowScript.Settings.Value

/-!
# Environment variables

Variables can hold settings: `PMSL_LOGGING__LEVEL` is the key `level` in
the table `logging`.
-/

namespace WorkflowScript.Settings

/-- Names and values of variables. -/
abbrev Environment := List (String × String)

/-- What the names of variables with settings start with, in lower case. -/
def variableLead : List Char := "pmsl_".toList

/-- The variable that names the settings file. -/
def pathVariable : String := "PMSL_CONFIG_PATH"

/-- A variable's key path with dots: two underscores stand for one dot. -/
def dotted : List Char → List Char
  | '_' :: '_' :: cs => '.' :: dotted cs
  | c :: cs => c :: dotted cs
  | [] => []

/-- The setting that a variable holds, if its name starts as it has to. -/
def assignment? (name value : String) : Option (Path × Value) :=
  let key := (Text.lowered name).toList
  if variableLead.isPrefixOf key then
    let path := readPath (String.ofList (dotted (key.drop variableLead.length)))
    some (path, .text value)
  else none

/-- The layer that the environment makes. -/
def environmentLayer (env : Environment) : Layer :=
  env.filterMap fun (name, value) => assignment? name value

end WorkflowScript.Settings
