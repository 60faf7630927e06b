import WorkflowScript.Expression.Positions
import WorkflowScript.Statement.Basic

/-!
# Positions in statements

`mapPositions` for statements: every position inside a statement, at every
depth, goes through the function. `positions` lists them all, a head in front
of its body and a body in front of what is returned.
-/

namespace WorkflowScript

def Declaration.mapPositions (f : Position → Position) (d : Declaration) : Declaration :=
  ⟨d.name, d.value.mapPositions f, f d.position⟩

def Assignment.mapPositions (f : Position → Position) (a : Assignment) : Assignment :=
  ⟨a.name, a.value.mapPositions f, f a.position⟩

mutual

def Statement.mapPositions (f : Position → Position) : Statement → Statement
  | .definition d => .definition (d.mapPositions f)
  | .declaration d => .declaration (d.mapPositions f)
  | .assignment a => .assignment (a.mapPositions f)
  | .conditional c => .conditional (c.mapPositions f)
  | .loop l => .loop (l.mapPositions f)
  | .call c => .call (c.mapPositions f)

def Definition.mapPositions (f : Position → Position) : Definition → Definition
  | ⟨name, params, body, returns, position⟩ =>
    ⟨name, params, mapStatements f body, returns.map (Expression.mapPositions f), f position⟩

def Conditional.mapPositions (f : Position → Position) : Conditional → Conditional
  | ⟨condition, body, position⟩ =>
    ⟨condition.mapPositions f, mapStatements f body, f position⟩

def Loop.mapPositions (f : Position → Position) : Loop → Loop
  | ⟨init, condition, step, body, position⟩ =>
    ⟨init.mapPositions f, condition.mapPositions f, step.mapPositions f, mapStatements f body,
      f position⟩

def mapStatements (f : Position → Position) : List Statement → List Statement
  | [] => []
  | s :: ss => s.mapPositions f :: mapStatements f ss

end

/-! ## All positions of a statement -/

def Declaration.positions (d : Declaration) : List Position := d.position :: d.value.positions

def Assignment.positions (a : Assignment) : List Position := a.position :: a.value.positions

/-- The positions of what may be missing. -/
def positionsOfOption {α : Type} (positions : α → List Position) : Option α → List Position
  | none => []
  | some a => positions a

mutual

def Statement.positions : Statement → List Position
  | .definition d => d.positions
  | .declaration d => d.positions
  | .assignment a => a.positions
  | .conditional c => c.positions
  | .loop l => l.positions
  | .call c => c.positions

def Definition.positions : Definition → List Position
  | ⟨_, _, body, returns, position⟩ =>
    position :: (positionsOfStatements body ++ positionsOfOption Expression.positions returns)

def Conditional.positions : Conditional → List Position
  | ⟨condition, body, position⟩ =>
    position :: (condition.positions ++ positionsOfStatements body)

def Loop.positions : Loop → List Position
  | ⟨init, condition, step, body, position⟩ =>
    position :: (init.positions ++ (condition.positions ++
      (step.positions ++ positionsOfStatements body)))

def positionsOfStatements : List Statement → List Position
  | [] => []
  | s :: ss => s.positions ++ positionsOfStatements ss

end

end WorkflowScript
