import WorkflowScript.Statement.Equality
import WorkflowScript.Workflow.Basic

/-!
# Equality of workflows

As for statements: decided part by part, positions included.
-/

namespace WorkflowScript

deriving instance DecidableEq for Action, Transition
deriving instance DecidableEq for Node
deriving instance DecidableEq for Workflow

end WorkflowScript
