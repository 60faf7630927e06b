import WorkflowScript.Workflow.Basic
import WorkflowScript.Text.Quoted

/-!
# Log events

What the library reports about its own work, as data. An event is its
cause; `level`, `source`, `message` and `fields` say how a log shows it.
Functions that report return their events in the order in which things
happened.
-/

namespace WorkflowScript

inductive Event where
  /-- A token was read that belongs to no class. -/
  | unrecognisedInput (position : Position) (text : String)
  /-- A node was parsed up to and including its `end`. -/
  | parsedNode (name : String) (kind : NodeKind) (actions transitions : Nat)
  /-- A workflow was parsed up to and including its `end`. -/
  | parsedWorkflow (name : String) (nodes : Nat)
  /-- A condition was parsed to the end of its input. -/
  | parsedCondition (terms : Nat)
  /-- The settings were loaded; `path` is the file that was asked for. -/
  | loadedSettings (path : Option String) (symbols : Nat)
  /-- A workflow file was read and parsed. -/
  | loadedWorkflow (name file : String)
deriving Repr, DecidableEq

namespace Event

inductive Level where
  | warn | info | debug | trace
deriving Repr, DecidableEq

/-- The part of the library an event comes from. -/
inductive Source where
  | scanner | parser | settings | commandLine
deriving Repr, DecidableEq

/-- A field of a log record: counts are numbers, all else is text. -/
inductive Field where
  | text (s : String)
  | count (n : Nat)
deriving Repr, DecidableEq

def level : Event → Level
  | unrecognisedInput .. => .warn
  | parsedNode .. => .trace
  | parsedWorkflow .. | parsedCondition .. | loadedSettings .. => .debug
  | loadedWorkflow .. => .info

def source : Event → Source
  | unrecognisedInput .. => .scanner
  | parsedNode .. | parsedWorkflow .. | parsedCondition .. => .parser
  | loadedSettings .. => .settings
  | loadedWorkflow .. => .commandLine

def message : Event → String
  | unrecognisedInput .. => "unrecognised input"
  | parsedNode .. => "parsed node"
  | parsedWorkflow .. => "parsed workflow"
  | parsedCondition .. => "parsed condition"
  | loadedSettings .. => "loaded configuration"
  | loadedWorkflow .. => "loaded workflow"

/-- How a record shows a path that may be missing. -/
def showPath : Option String → String
  | none => "None"
  | some path => "Some(" ++ Text.quote path ++ ")"

/-- The named values of the record, the message apart. -/
def fields : Event → List (String × Field)
  | unrecognisedInput position text =>
      [("position", .text position.display), ("text", .text text)]
  | parsedNode name kind actions transitions =>
      [("node", .text name), ("kind", .text kind.keyword), ("actions", .count actions),
        ("transitions", .count transitions)]
  | parsedWorkflow name nodes => [("workflow", .text name), ("nodes", .count nodes)]
  | parsedCondition terms => [("terms", .count terms)]
  | loadedSettings path symbols =>
      [("path", .text (showPath path)), ("symbols", .count symbols)]
  | loadedWorkflow name file => [("workflow", .text name), ("file", .text file)]

end Event

end WorkflowScript
