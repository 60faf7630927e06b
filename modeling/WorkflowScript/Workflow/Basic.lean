import WorkflowScript.Statement.Basic

/-!
# Workflows

A workflow is a list of nodes; a node has scripts run when it is entered
or left, and guarded transitions to other nodes. Nothing is checked
beyond the grammar: a transition's target is a name that nobody has
looked up, names may repeat, and a node may have several actions for one
phase.
-/

namespace WorkflowScript

inductive NodeKind where
  | node | state | join
deriving Repr, DecidableEq

def NodeKind.keyword : NodeKind → String
  | .node => "node"
  | .state => "state"
  | .join => "join"

inductive Phase where
  | enter | leave
deriving Repr, DecidableEq

def Phase.keyword : Phase → String
  | .enter => "enter"
  | .leave => "leave"

/-- The script run in one phase of a node. -/
structure Action where
  phase : Phase
  statements : List Statement
  position : Position

/-- An edge to the node called `target`; without a guard it is always open. -/
structure Transition where
  target : String
  guard : Option Condition
  position : Position

structure Node where
  kind : NodeKind
  name : String
  actions : List Action
  transitions : List Transition
  position : Position

structure Workflow where
  name : String
  nodes : List Node
  position : Position

/-- The node's actions for one phase, in source order. -/
def Node.actionsFor (n : Node) (phase : Phase) : List Action :=
  n.actions.filter fun a => a.phase = phase

/-- The first node with the given name. -/
def Workflow.node? (w : Workflow) (name : String) : Option Node :=
  w.nodes.find? fun n => n.name = name

end WorkflowScript
