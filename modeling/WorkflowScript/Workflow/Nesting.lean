import WorkflowScript.Statement.Nesting
import WorkflowScript.Workflow.Basic

/-!
# Nesting of workflows

Nodes, actions and transitions take no level; what their scripts and
guards need is what they need.
-/

namespace WorkflowScript

def Action.nesting (a : Action) : Nat := nestingOfStatements a.statements

def Transition.nesting (t : Transition) : Nat := (t.guard.map Condition.nesting).getD 0

/-- The largest of the values that `size` takes on a list. -/
def largest {α : Type} (size : α → Nat) (items : List α) : Nat :=
  items.foldr (fun a n => max (size a) n) 0

def Node.nesting (n : Node) : Nat :=
  max (largest Action.nesting n.actions) (largest Transition.nesting n.transitions)

def Workflow.nesting (w : Workflow) : Nat := largest Node.nesting w.nodes

end WorkflowScript
