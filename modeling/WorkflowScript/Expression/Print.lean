import WorkflowScript.Expression.Basic

/-!
# Printing expressions

The normal written form: one space around every operator, commas followed
by a space, brackets only where the tree has a group. Since the tree
already keeps every bracket of its source, nothing has to be bracketed
anew.
-/

namespace WorkflowScript

mutual

def Condition.print : Condition → String
  | ⟨first, rest⟩ => first.print ++ printAlternatives rest

/-- The alternatives behind the first one. -/
def printAlternatives : List Conjunction → String
  | [] => ""
  | c :: cs => " or " ++ c.print ++ printAlternatives cs

def Conjunction.print : Conjunction → String
  | ⟨first, rest⟩ => first.print ++ printConjuncts rest

/-- The clauses behind the first one. -/
def printConjuncts : List Clause → String
  | [] => ""
  | c :: cs => " and " ++ c.print ++ printConjuncts cs

def Clause.print : Clause → String
  | ⟨true, relation⟩ => "not " ++ relation.print
  | ⟨false, relation⟩ => relation.print

def Relation.print : Relation → String
  | ⟨left, none⟩ => left.print
  | ⟨left, some (op, right)⟩ => left.print ++ " " ++ op.symbol ++ " " ++ right.print

def Expression.print : Expression → String
  | ⟨first, rest⟩ => first.print ++ printAddends rest

/-- The terms behind the first one. -/
def printAddends : List (AddOp × Term) → String
  | [] => ""
  | (op, t) :: rest => " " ++ op.symbol ++ " " ++ t.print ++ printAddends rest

def Term.print : Term → String
  | ⟨first, rest⟩ => first.print ++ printMultipliers rest

/-- The factors behind the first one. -/
def printMultipliers : List (MulOp × Factor) → String
  | [] => ""
  | (op, f) :: rest => " " ++ op.symbol ++ " " ++ f.print ++ printMultipliers rest

def Factor.print : Factor → String
  | .variable name _ => name
  | .call call => call.print
  | .integer text => text
  | .string text => text
  | .bool true => "true"
  | .bool false => "false"
  | .group inner => "(" ++ inner.print ++ ")"

def Call.print : Call → String
  | ⟨name, [], _⟩ => name ++ "()"
  | ⟨name, first :: rest, _⟩ => name ++ "(" ++ first.print ++ printArguments rest ++ ")"

/-- The arguments behind the first one. -/
def printArguments : List Expression → String
  | [] => ""
  | e :: es => ", " ++ e.print ++ printArguments es

end

end WorkflowScript
