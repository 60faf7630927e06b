import WorkflowScript.Expression.Basic

/-!
# Nesting of expressions

How many levels of nesting a tree needs: a group and the argument list of
a call, empty or not, each add one level over everything inside them.
-/

namespace WorkflowScript

mutual

def Condition.nesting : Condition → Nat
  | ⟨first, rest⟩ => max first.nesting (nestingOfConjunctions rest)

def nestingOfConjunctions : List Conjunction → Nat
  | [] => 0
  | c :: cs => max c.nesting (nestingOfConjunctions cs)

def Conjunction.nesting : Conjunction → Nat
  | ⟨first, rest⟩ => max first.nesting (nestingOfClauses rest)

def nestingOfClauses : List Clause → Nat
  | [] => 0
  | c :: cs => max c.nesting (nestingOfClauses cs)

def Clause.nesting : Clause → Nat
  | ⟨_, relation⟩ => relation.nesting

def Relation.nesting : Relation → Nat
  | ⟨left, none⟩ => left.nesting
  | ⟨left, some (_, right)⟩ => max left.nesting right.nesting

def Expression.nesting : Expression → Nat
  | ⟨first, rest⟩ => max first.nesting (nestingOfAddends rest)

def nestingOfAddends : List (AddOp × Term) → Nat
  | [] => 0
  | (_, t) :: rest => max t.nesting (nestingOfAddends rest)

def Term.nesting : Term → Nat
  | ⟨first, rest⟩ => max first.nesting (nestingOfMultipliers rest)

def nestingOfMultipliers : List (MulOp × Factor) → Nat
  | [] => 0
  | (_, f) :: rest => max f.nesting (nestingOfMultipliers rest)

def Factor.nesting : Factor → Nat
  | .call call => call.nesting
  | .group inner => inner.nesting + 1
  | .variable _ _ | .integer _ | .string _ | .bool _ => 0

def Call.nesting : Call → Nat
  | ⟨_, args, _⟩ => nestingOfArguments args + 1

def nestingOfArguments : List Expression → Nat
  | [] => 0
  | e :: es => max e.nesting (nestingOfArguments es)

end

end WorkflowScript
