import WorkflowScript.Target.Statement
import WorkflowScript.Workflow.Basic

/-!
# Target code of workflows

A workflow becomes a listing with one line for each node, for each of its
actions and for each of its transitions, in the order of the tree.
-/

namespace WorkflowScript

/-- The script of an action. -/
def Action.generate (names : Resolver) (a : Action) : String :=
  generateScript names a.statements

/-- The guard of a transition; without one it is always open. -/
def Transition.generateGuard (names : Resolver) (t : Transition) : String :=
  match t.guard with
  | some guard => guard.generate names
  | none => "true"

/-- The lines of a node. -/
def Node.listing (names : Resolver) (n : Node) : List String :=
  (n.kind.keyword ++ " " ++ n.name) ::
    (n.actions.map fun a => "  " ++ a.phase.keyword ++ ": " ++ a.generate names) ++
    n.transitions.map fun t => "  -> " ++ t.target ++ ": " ++ t.generateGuard names

/-- The listing of all nodes, a line feed behind every line. -/
def Workflow.render (names : Resolver) (w : Workflow) : String :=
  String.join ((w.nodes.flatMap (Node.listing names)).map (· ++ "\n"))

end WorkflowScript
