import WorkflowScript.CommandLine.Arguments
import WorkflowScript.Encoding.Workflow
import WorkflowScript.Grammar.Workflow
import WorkflowScript.Json.Render
import WorkflowScript.Settings.Load
import WorkflowScript.Settings.VariableFile
import WorkflowScript.Target.Workflow
import WorkflowScript.Workflow.Print

/-!
# Running a command

A command loads the settings, reads and parses its file, and prints one
text. A run's outcome is that text or the failure that prevented it, with
the events on the way.
-/

namespace WorkflowScript

/-- Why a command printed nothing. -/
inductive Failure where
  | usage (error : UsageError)
  | settings (error : SettingsError)
  | read (file : String) (error : ReadError)
  | parse (file : String) (error : ParseError)
deriving Repr, DecidableEq

/-- What is said about a failure. A usage error is said by the usage text
instead. -/
def Failure.message : Failure → String
  | .usage _ => ""
  | .settings e => "Failed to load configuration: " ++ e.message
  | .read file e => "Failed to read " ++ file ++ ": " ++ e.message
  | .parse file e => "Failed to parse " ++ file ++ ": " ++ e.message

structure CommandOutcome where
  result : Except Failure String
  /-- What was reported, in order. -/
  events : List Event

/-- What a command prints for a workflow. -/
def Command.output (c : Command) (settings : Settings) (w : Workflow) : String :=
  match c with
  | .check => "✓ " ++ w.name ++ " (" ++ toString w.nodes.length ++ " nodes)\n"
  | .format => w.print
  | .generate => w.render settings.symbolTable.resolve
  | .ast => w.toJson.pretty ++ "\n"

/-- What a command does with the contents of its file. -/
def Invocation.runOn (i : Invocation) (settings : Settings)
    (contents : Except ReadError (List UInt8)) : CommandOutcome :=
  let text : Except ReadError String := do
    match Text.Utf8.decode? (← contents) with
    | some text => pure text
    | none => throw .notText
  match text with
  | .error e => ⟨.error (.read i.file e), []⟩
  | .ok text =>
    let parsed := parseWorkflow text
    match parsed.result with
    | .error e => ⟨.error (.parse i.file e), parsed.events⟩
    | .ok w =>
      ⟨.ok (i.command.output settings w), parsed.events ++ [.loadedWorkflow w.name i.file]⟩

variable {m : Type → Type} [Monad m]

/-- Runs a command with the given environment. -/
def Invocation.run (i : Invocation) (read : FileReader m) (env : Settings.Environment) :
    m CommandOutcome := do
  match ← Settings.load read env i.settingsPath none with
  | .error e => return ⟨.error (.settings e), []⟩
  | .ok (settings, event) =>
    let outcome := i.runOn settings (← read i.file)
    return { outcome with events := event :: outcome.events }

/-- Runs the command that the arguments ask for. -/
def runArguments (read : FileReader m) (env : Settings.Environment)
    (arguments : List String) : m CommandOutcome := do
  match Invocation.ofArguments arguments with
  | .error e => return ⟨.error (.usage e), []⟩
  | .ok i => i.run read env

/-! ## The program -/

/-- The file of variables that the program adds to its environment. -/
def variableFile : String := ".env"

/-- What a program leaves: its exit code and what it wrote. -/
structure Exit where
  code : Nat
  stdout : String
  stderr : String
deriving Repr, DecidableEq

def CommandOutcome.exit (o : CommandOutcome) : Exit :=
  match o.result with
  | .ok text => ⟨0, text, ""⟩
  | .error (.usage .helpRequested) => ⟨0, "", ""⟩
  | .error (.usage _) => ⟨2, "", ""⟩
  | .error failure => ⟨1, "", "Error: " ++ failure.message ++ "\n"⟩

/-- The whole program: the variable file first, then the command. -/
def runProgram (read : FileReader m) (env : Settings.Environment)
    (arguments : List String) : m CommandOutcome := do
  let env := match ← read variableFile with
    | .ok bytes => Settings.addVariableFile env bytes
    | .error _ => env
  runArguments read env arguments

end WorkflowScript
