import WorkflowScript.Encoding.Statement
import WorkflowScript.Workflow.Basic

/-!
# Workflows as JSON

Nodes and actions carry their kind and phase by name. A transition
without a guard has a null one; read back, it may also be missing.
-/

namespace WorkflowScript

open Json (asString asList asNamed field field?)

/-! ## Names -/

def NodeKind.name : NodeKind → String
  | .node => "Node"
  | .state => "State"
  | .join => "Join"

def Phase.name : Phase → String
  | .enter => "Enter"
  | .leave => "Leave"

def NodeKind.ofJson? : Json → Option NodeKind := asNamed [.node, .state, .join] NodeKind.name

def Phase.ofJson? : Json → Option Phase := asNamed [.enter, .leave] Phase.name

/-! ## Writing -/

def Action.toJson (a : Action) : Json :=
  .object [("phase", .string a.phase.name), ("statements", .array (statementsToJson a.statements)),
    ("position", a.position.toJson)]

def Transition.toJson (t : Transition) : Json :=
  .object [("target", .string t.target), ("guard", Json.ofOption Condition.toJson t.guard),
    ("position", t.position.toJson)]

def Node.toJson (n : Node) : Json :=
  .object [("kind", .string n.kind.name), ("name", .string n.name),
    ("actions", .array (n.actions.map Action.toJson)),
    ("transitions", .array (n.transitions.map Transition.toJson)),
    ("position", n.position.toJson)]

def Workflow.toJson (w : Workflow) : Json :=
  .object [("name", .string w.name), ("nodes", .array (w.nodes.map Node.toJson)),
    ("position", w.position.toJson)]

/-! ## Reading -/

def Action.ofJson? (j : Json) : Option Action := do
  let phase ← field "phase" Phase.ofJson? j
  let statements ← field "statements" (asList Statement.ofJson?) j
  let position ← field "position" Position.ofJson? j
  some ⟨phase, statements, position⟩

def Transition.ofJson? (j : Json) : Option Transition := do
  let target ← field "target" asString j
  let guard ← field? "guard" Condition.ofJson? j
  let position ← field "position" Position.ofJson? j
  some ⟨target, guard, position⟩

def Node.ofJson? (j : Json) : Option Node := do
  let kind ← field "kind" NodeKind.ofJson? j
  let name ← field "name" asString j
  let actions ← field "actions" (asList Action.ofJson?) j
  let transitions ← field "transitions" (asList Transition.ofJson?) j
  let position ← field "position" Position.ofJson? j
  some ⟨kind, name, actions, transitions, position⟩

def Workflow.ofJson? (j : Json) : Option Workflow := do
  let name ← field "name" asString j
  let nodes ← field "nodes" (asList Node.ofJson?) j
  let position ← field "position" Position.ofJson? j
  some ⟨name, nodes, position⟩

end WorkflowScript
