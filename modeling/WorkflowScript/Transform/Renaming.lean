import WorkflowScript.Expression.Renaming
import WorkflowScript.Transform.Basic

/-!
# The transformer that renames variables

It answers a variable with the variable of the new name at the same place,
and leaves every other node as it is.
-/

namespace WorkflowScript

/-- The factor under the name that `r` has for it, if it is a variable. -/
def Factor.renameVariable (r : String → String) : Factor → Factor
  | .variable name position => .variable (r name) position
  | other => other

def Transformer.renaming (r : String → String) : Transformer Unit where
  replace
    | .factor, f, state => (f.renameVariable r, state)
    | _, node, state => (node, state)

end WorkflowScript
