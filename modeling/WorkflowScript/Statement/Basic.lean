import WorkflowScript.Expression.Basic

/-!
# Statements

The statements of action scripts and function bodies. Declarations and
assignments hold no statements; definitions, conditionals and loops do,
so those three are mutual with `Statement`. Each carries the position of
its first token.
-/

namespace WorkflowScript

/-- `var name = value`; in the head of a loop the keyword may be missing. -/
structure Declaration where
  name : String
  value : Expression
  position : Position

/-- `name = value`. -/
structure Assignment where
  name : String
  value : Expression
  position : Position

mutual

inductive Statement where
  | definition (d : Definition)
  | declaration (d : Declaration)
  | assignment (a : Assignment)
  | conditional (c : Conditional)
  | loop (l : Loop)
  | call (c : Call)

/-- A function: its parameters are local to `body` and `returns`. -/
structure Definition where
  name : String
  params : List String
  body : List Statement
  returns : Option Expression
  position : Position

/-- `if condition then body end`. -/
structure Conditional where
  condition : Condition
  body : List Statement
  position : Position

/-- `for init; condition; step do body end`. -/
structure Loop where
  init : Declaration
  condition : Relation
  step : Assignment
  body : List Statement
  position : Position

end

/-- The place of the statement's first token. -/
def Statement.position : Statement → Position
  | .definition d => d.position
  | .declaration d => d.position
  | .assignment a => a.position
  | .conditional c => c.position
  | .loop l => l.position
  | .call c => c.position

end WorkflowScript
