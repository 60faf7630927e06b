import WorkflowScript.Transform.Fragment

/-!
# The nodes of a tree in order

`hooks` lists the nodes of a tree that are offered to a transformer, each by
its hook. A node stands in front of its parts, and these are in the order of
the source: the head of a loop in front of its body, a body in front of what
is returned, all actions of a workflow's node in front of its transitions.
-/

namespace WorkflowScript

/-! ## Expressions -/

mutual

def Condition.hooks : Condition → List Hook
  | ⟨first, rest⟩ => .condition :: (first.hooks ++ hooksOfConjunctions rest)

def hooksOfConjunctions : List Conjunction → List Hook
  | [] => []
  | c :: cs => c.hooks ++ hooksOfConjunctions cs

def Conjunction.hooks : Conjunction → List Hook
  | ⟨first, rest⟩ => .conjunction :: (first.hooks ++ hooksOfClauses rest)

def hooksOfClauses : List Clause → List Hook
  | [] => []
  | c :: cs => c.hooks ++ hooksOfClauses cs

def Clause.hooks : Clause → List Hook
  | ⟨_, relation⟩ => .clause :: relation.hooks

def Relation.hooks : Relation → List Hook
  | ⟨left, none⟩ => .relation :: left.hooks
  | ⟨left, some (_, right)⟩ => .relation :: (left.hooks ++ right.hooks)

def Expression.hooks : Expression → List Hook
  | ⟨first, rest⟩ => .expression :: (first.hooks ++ hooksOfAddends rest)

def hooksOfAddends : List (AddOp × Term) → List Hook
  | [] => []
  | (_, t) :: rest => t.hooks ++ hooksOfAddends rest

def Term.hooks : Term → List Hook
  | ⟨first, rest⟩ => .term :: (first.hooks ++ hooksOfMultipliers rest)

def hooksOfMultipliers : List (MulOp × Factor) → List Hook
  | [] => []
  | (_, f) :: rest => f.hooks ++ hooksOfMultipliers rest

def Factor.hooks : Factor → List Hook
  | .call call => .factor :: call.hooks
  | .group inner => .factor :: inner.hooks
  | .variable _ _ | .integer _ | .string _ | .bool _ => [.factor]

def Call.hooks : Call → List Hook
  | ⟨_, args, _⟩ => .call :: hooksOfArguments args

def hooksOfArguments : List Expression → List Hook
  | [] => []
  | e :: es => e.hooks ++ hooksOfArguments es

end

/-! ## Statements -/

def Declaration.hooks (d : Declaration) : List Hook := .declaration :: d.value.hooks

def Assignment.hooks (a : Assignment) : List Hook := .assignment :: a.value.hooks

/-- The nodes of what may be missing. -/
def hooksOfOption {α : Type} (hooks : α → List Hook) : Option α → List Hook
  | none => []
  | some a => hooks a

mutual

def Statement.hooks : Statement → List Hook
  | .definition d => .statement :: d.hooks
  | .declaration d => .statement :: d.hooks
  | .assignment a => .statement :: a.hooks
  | .conditional c => .statement :: c.hooks
  | .loop l => .statement :: l.hooks
  | .call c => .statement :: c.hooks

def Definition.hooks : Definition → List Hook
  | ⟨_, _, body, returns, _⟩ =>
    .definition :: (hooksOfStatements body ++ hooksOfOption Expression.hooks returns)

def Conditional.hooks : Conditional → List Hook
  | ⟨condition, body, _⟩ => .conditional :: (condition.hooks ++ hooksOfStatements body)

def Loop.hooks : Loop → List Hook
  | ⟨init, condition, step, body, _⟩ =>
    .loop :: (init.hooks ++ (condition.hooks ++ (step.hooks ++ hooksOfStatements body)))

def hooksOfStatements : List Statement → List Hook
  | [] => []
  | s :: ss => s.hooks ++ hooksOfStatements ss

end

/-! ## Workflows -/

def Action.hooks (a : Action) : List Hook := hooksOfStatements a.statements

def Transition.hooks (t : Transition) : List Hook := hooksOfOption Condition.hooks t.guard

def Node.hooks (n : Node) : List Hook :=
  n.actions.flatMap Action.hooks ++ n.transitions.flatMap Transition.hooks

def Workflow.hooks (w : Workflow) : List Hook := w.nodes.flatMap Node.hooks

def Fragment.hooks : Fragment → List Hook
  | workflow w => w.hooks
  | node n => n.hooks
  | action a => a.hooks
  | transition t => t.hooks
  | script statements => hooksOfStatements statements
  | statement s => s.hooks
  | definition d => d.hooks
  | call c => c.hooks
  | declaration d => d.hooks
  | assignment a => a.hooks
  | conditional c => c.hooks
  | loop l => l.hooks
  | condition c => c.hooks
  | conjunction c => c.hooks
  | clause c => c.hooks
  | relation r => r.hooks
  | expression e => e.hooks
  | term t => t.hooks
  | factor f => f.hooks

end WorkflowScript
