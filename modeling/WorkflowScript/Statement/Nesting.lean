import WorkflowScript.Expression.Nesting
import WorkflowScript.Statement.Basic

/-!
# Nesting of statements

A definition, a conditional or a loop that stands as a statement adds one
level over everything inside it, its head included.
-/

namespace WorkflowScript

def Declaration.nesting (d : Declaration) : Nat := d.value.nesting

def Assignment.nesting (a : Assignment) : Nat := a.value.nesting

mutual

def Statement.nesting : Statement → Nat
  | .definition d => d.nesting + 1
  | .declaration d => d.nesting
  | .assignment a => a.nesting
  | .conditional c => c.nesting + 1
  | .loop l => l.nesting + 1
  | .call c => c.nesting

/-- The levels needed inside a definition. -/
def Definition.nesting : Definition → Nat
  | ⟨_, _, body, returns, _⟩ =>
    max (nestingOfStatements body) ((returns.map Expression.nesting).getD 0)

/-- The levels needed inside a conditional. -/
def Conditional.nesting : Conditional → Nat
  | ⟨condition, body, _⟩ => max condition.nesting (nestingOfStatements body)

/-- The levels needed inside a loop. -/
def Loop.nesting : Loop → Nat
  | ⟨init, condition, step, body, _⟩ =>
    max (max init.nesting condition.nesting) (max step.nesting (nestingOfStatements body))

def nestingOfStatements : List Statement → Nat
  | [] => 0
  | s :: ss => max s.nesting (nestingOfStatements ss)

end

end WorkflowScript
