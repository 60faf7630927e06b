import WorkflowScript.Expression.Basic
import WorkflowScript.Names

/-!
# Target code of expressions

The operators of the target language bind differently, so sums and
products are bracketed: an expression of two or more terms and a term of
two or more factors always, a single operand never. A negated relation is
bracketed as a whole. Variables go through the resolver; the names of
called functions are written as they are.
-/

namespace WorkflowScript

/-- The text, in round brackets if `bracket` is set. -/
def wrapIf (bracket : Bool) (text : String) : String :=
  if bracket then "(" ++ text ++ ")" else text

mutual

def Condition.generate (names : Resolver) : Condition → String
  | ⟨first, rest⟩ => first.generate names ++ generateAlternatives names rest

/-- The alternatives behind the first one. -/
def generateAlternatives (names : Resolver) : List Conjunction → String
  | [] => ""
  | c :: cs => "||" ++ c.generate names ++ generateAlternatives names cs

def Conjunction.generate (names : Resolver) : Conjunction → String
  | ⟨first, rest⟩ => first.generate names ++ generateConjuncts names rest

/-- The clauses behind the first one. -/
def generateConjuncts (names : Resolver) : List Clause → String
  | [] => ""
  | c :: cs => "&&" ++ c.generate names ++ generateConjuncts names cs

def Clause.generate (names : Resolver) : Clause → String
  | ⟨true, relation⟩ => "!(" ++ relation.generate names ++ ")"
  | ⟨false, relation⟩ => relation.generate names

def Relation.generate (names : Resolver) : Relation → String
  | ⟨left, none⟩ => left.generate names
  | ⟨left, some (op, right)⟩ => left.generate names ++ op.targetSymbol ++ right.generate names

def Expression.generate (names : Resolver) : Expression → String
  | ⟨first, rest⟩ =>
    wrapIf (!rest.isEmpty) (first.generate names ++ generateAddends names rest)

/-- The terms behind the first one. -/
def generateAddends (names : Resolver) : List (AddOp × Term) → String
  | [] => ""
  | (op, t) :: rest => op.symbol ++ t.generate names ++ generateAddends names rest

def Term.generate (names : Resolver) : Term → String
  | ⟨first, rest⟩ =>
    wrapIf (!rest.isEmpty) (first.generate names ++ generateMultipliers names rest)

/-- The factors behind the first one. -/
def generateMultipliers (names : Resolver) : List (MulOp × Factor) → String
  | [] => ""
  | (op, f) :: rest => op.symbol ++ f.generate names ++ generateMultipliers names rest

def Factor.generate (names : Resolver) : Factor → String
  | .variable name _ => names name
  | .call call => call.generate names
  | .integer text => text
  | .string text => text
  | .bool true => "true"
  | .bool false => "false"
  | .group inner => "(" ++ inner.generate names ++ ")"

def Call.generate (names : Resolver) : Call → String
  | ⟨name, [], _⟩ => name ++ "()"
  | ⟨name, first :: rest, _⟩ =>
    name ++ "(" ++ first.generate names ++ generateArguments names rest ++ ")"

/-- The arguments behind the first one. -/
def generateArguments (names : Resolver) : List Expression → String
  | [] => ""
  | e :: es => "," ++ e.generate names ++ generateArguments names es

end

end WorkflowScript
