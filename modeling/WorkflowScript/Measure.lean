import WorkflowScript.Expression.Basic

/-!
# The shape of a condition

How many operands each layer of a condition has and which operators join
them, without the operands themselves.
-/

namespace WorkflowScript

/-- The shape of an expression. -/
structure ExpressionShape where
  terms : Nat
  /-- The number of factors of each term. -/
  factors : List Nat
  /-- The operators between the terms. -/
  ops : List AddOp
  /-- The operators in the first term. -/
  firstOps : List MulOp
deriving Repr, DecidableEq

def Expression.shape (e : Expression) : ExpressionShape where
  terms := e.termCount
  factors := e.first.factorCount :: e.rest.map (·.2.factorCount)
  ops := e.rest.map Prod.fst
  firstOps := e.first.rest.map Prod.fst

/-- The shape of a clause: whether it is negated, and of its two sides. -/
structure ClauseShape where
  negated : Bool
  left : ExpressionShape
  comparison : Option (RelOp × ExpressionShape)
deriving Repr, DecidableEq

def Clause.shape (c : Clause) : ClauseShape where
  negated := c.negated
  left := c.relation.left.shape
  comparison := c.relation.comparison.map fun (op, right) => (op, right.shape)

/-- The shapes of all clauses, one list for each alternative. -/
def Condition.shape (c : Condition) : List (List ClauseShape) :=
  c.operands.map fun conjunction => conjunction.operands.map Clause.shape

end WorkflowScript
