import WorkflowScript.Statement.Positions
import WorkflowScript.Workflow.Basic

/-!
# Positions in workflows

`mapPositions` and `positions` for workflows and their parts.
-/

namespace WorkflowScript

def Action.mapPositions (f : Position → Position) (a : Action) : Action :=
  ⟨a.phase, mapStatements f a.statements, f a.position⟩

def Transition.mapPositions (f : Position → Position) (t : Transition) : Transition :=
  ⟨t.target, t.guard.map (Condition.mapPositions f), f t.position⟩

def Node.mapPositions (f : Position → Position) (n : Node) : Node :=
  ⟨n.kind, n.name, n.actions.map (Action.mapPositions f),
    n.transitions.map (Transition.mapPositions f), f n.position⟩

def Workflow.mapPositions (f : Position → Position) (w : Workflow) : Workflow :=
  ⟨w.name, w.nodes.map (Node.mapPositions f), f w.position⟩

/-! ## All positions of a workflow -/

def Action.positions (a : Action) : List Position :=
  a.position :: positionsOfStatements a.statements

def Transition.positions (t : Transition) : List Position :=
  t.position :: positionsOfOption Condition.positions t.guard

/-- The positions of a node, of its actions and then of its transitions. -/
def Node.positions (n : Node) : List Position :=
  n.position :: (n.actions.flatMap Action.positions ++ n.transitions.flatMap Transition.positions)

def Workflow.positions (w : Workflow) : List Position :=
  w.position :: w.nodes.flatMap Node.positions

end WorkflowScript
