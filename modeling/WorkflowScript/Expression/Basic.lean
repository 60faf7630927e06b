import WorkflowScript.Position

/-!
# Expressions

Expressions are layered as the grammar is, loosest binding first:
`Condition` (or), `Conjunction` (and), `Clause` (not), `Relation`
(one comparison at most), `Expression` (sums), `Term` (products) and
`Factor`. A layer holds its first operand and the list of those that
follow, so no layer is ever empty and grouping is never ambiguous:
brackets of the source are kept as `Factor.group`.
-/

namespace WorkflowScript

/-! ## Operators -/

inductive AddOp where
  | plus | minus
deriving Repr, DecidableEq

inductive MulOp where
  | times | divide
deriving Repr, DecidableEq

inductive RelOp where
  | greater | less | equal
deriving Repr, DecidableEq

def AddOp.symbol : AddOp → String
  | .plus => "+"
  | .minus => "-"

def MulOp.symbol : MulOp → String
  | .times => "*"
  | .divide => "/"

/-- The comparison as written in source. -/
def RelOp.symbol : RelOp → String
  | .greater => ">"
  | .less => "<"
  | .equal => "="

/-- The comparison as written in target code. -/
def RelOp.targetSymbol : RelOp → String
  | .greater => ">"
  | .less => "<"
  | .equal => "=="

/-! ## Layers -/

mutual

/-- Alternatives joined by `or`. -/
structure Condition where
  first : Conjunction
  rest : List Conjunction

/-- Clauses joined by `and`. -/
structure Conjunction where
  first : Clause
  rest : List Clause

/-- A relation, perhaps under `not`. -/
structure Clause where
  negated : Bool
  relation : Relation

/-- An expression, perhaps compared with another one. -/
structure Relation where
  left : Expression
  comparison : Option (RelOp × Expression)

/-- Terms joined by `+` and `-`. -/
structure Expression where
  first : Term
  rest : List (AddOp × Term)

/-- Factors joined by `*` and `/`. -/
structure Term where
  first : Factor
  rest : List (MulOp × Factor)

/-- What binds tightest. An integer keeps its digits and a string its
quotes and escapes, both as written. -/
inductive Factor where
  | variable (name : String) (position : Position)
  | call (call : Call)
  | integer (text : String)
  | string (text : String)
  | bool (value : Bool)
  | group (inner : Condition)

/-- A function applied to arguments; the position is the name's. -/
structure Call where
  name : String
  args : List Expression
  position : Position

end

namespace Condition

/-- All alternatives, in order. -/
def operands (c : Condition) : List Conjunction := c.first :: c.rest

end Condition

namespace Conjunction

/-- All clauses, in order. -/
def operands (c : Conjunction) : List Clause := c.first :: c.rest

end Conjunction

/-! ## Lifting through the layers -/

/-- A factor standing alone as an expression. -/
def Factor.toExpression (f : Factor) : Expression := ⟨⟨f, []⟩, []⟩

/-- An expression standing alone as a condition. -/
def Expression.toCondition (e : Expression) : Condition :=
  ⟨⟨⟨false, ⟨e, none⟩⟩, []⟩, []⟩

def Expression.termCount (e : Expression) : Nat := 1 + e.rest.length

def Term.factorCount (t : Term) : Nat := 1 + t.rest.length

end WorkflowScript
