import WorkflowScript.Expression.Basic

/-!
# Positions in expressions

`mapPositions f` applies `f` to every position of a tree and leaves the
rest alone. Two trees are the same up to positions if they agree once all
their positions are erased. `positions` lists them, as a walk through the
tree meets them: a part in front of its own parts, and these from left to
right.
-/

namespace WorkflowScript

mutual

def Condition.mapPositions (f : Position → Position) : Condition → Condition
  | ⟨first, rest⟩ => ⟨first.mapPositions f, mapConjunctions f rest⟩

def mapConjunctions (f : Position → Position) : List Conjunction → List Conjunction
  | [] => []
  | c :: cs => c.mapPositions f :: mapConjunctions f cs

def Conjunction.mapPositions (f : Position → Position) : Conjunction → Conjunction
  | ⟨first, rest⟩ => ⟨first.mapPositions f, mapClauses f rest⟩

def mapClauses (f : Position → Position) : List Clause → List Clause
  | [] => []
  | c :: cs => c.mapPositions f :: mapClauses f cs

def Clause.mapPositions (f : Position → Position) : Clause → Clause
  | ⟨negated, relation⟩ => ⟨negated, relation.mapPositions f⟩

def Relation.mapPositions (f : Position → Position) : Relation → Relation
  | ⟨left, none⟩ => ⟨left.mapPositions f, none⟩
  | ⟨left, some (op, right)⟩ => ⟨left.mapPositions f, some (op, right.mapPositions f)⟩

def Expression.mapPositions (f : Position → Position) : Expression → Expression
  | ⟨first, rest⟩ => ⟨first.mapPositions f, mapAddends f rest⟩

def mapAddends (f : Position → Position) : List (AddOp × Term) → List (AddOp × Term)
  | [] => []
  | (op, t) :: rest => (op, t.mapPositions f) :: mapAddends f rest

def Term.mapPositions (f : Position → Position) : Term → Term
  | ⟨first, rest⟩ => ⟨first.mapPositions f, mapMultipliers f rest⟩

def mapMultipliers (f : Position → Position) : List (MulOp × Factor) → List (MulOp × Factor)
  | [] => []
  | (op, x) :: rest => (op, x.mapPositions f) :: mapMultipliers f rest

def Factor.mapPositions (f : Position → Position) : Factor → Factor
  | .variable name position => .variable name (f position)
  | .call call => .call (call.mapPositions f)
  | .integer text => .integer text
  | .string text => .string text
  | .bool value => .bool value
  | .group inner => .group (inner.mapPositions f)

def Call.mapPositions (f : Position → Position) : Call → Call
  | ⟨name, args, position⟩ => ⟨name, mapArguments f args, f position⟩

def mapArguments (f : Position → Position) : List Expression → List Expression
  | [] => []
  | e :: es => e.mapPositions f :: mapArguments f es

end

/-! ## All positions of a tree -/

mutual

def Condition.positions : Condition → List Position
  | ⟨first, rest⟩ => first.positions ++ positionsOfConjunctions rest

def positionsOfConjunctions : List Conjunction → List Position
  | [] => []
  | c :: cs => c.positions ++ positionsOfConjunctions cs

def Conjunction.positions : Conjunction → List Position
  | ⟨first, rest⟩ => first.positions ++ positionsOfClauses rest

def positionsOfClauses : List Clause → List Position
  | [] => []
  | c :: cs => c.positions ++ positionsOfClauses cs

def Clause.positions : Clause → List Position
  | ⟨_, relation⟩ => relation.positions

def Relation.positions : Relation → List Position
  | ⟨left, none⟩ => left.positions
  | ⟨left, some (_, right)⟩ => left.positions ++ right.positions

def Expression.positions : Expression → List Position
  | ⟨first, rest⟩ => first.positions ++ positionsOfAddends rest

def positionsOfAddends : List (AddOp × Term) → List Position
  | [] => []
  | (_, t) :: rest => t.positions ++ positionsOfAddends rest

def Term.positions : Term → List Position
  | ⟨first, rest⟩ => first.positions ++ positionsOfMultipliers rest

def positionsOfMultipliers : List (MulOp × Factor) → List Position
  | [] => []
  | (_, x) :: rest => x.positions ++ positionsOfMultipliers rest

def Factor.positions : Factor → List Position
  | .variable _ position => [position]
  | .call call => call.positions
  | .integer _ | .string _ | .bool _ => []
  | .group inner => inner.positions

def Call.positions : Call → List Position
  | ⟨_, args, position⟩ => position :: positionsOfArguments args

def positionsOfArguments : List Expression → List Position
  | [] => []
  | e :: es => e.positions ++ positionsOfArguments es

end

end WorkflowScript
