import WorkflowScript.Expression.Basic

/-!
# Variables under other names

`rename r` gives every variable of a tree the name that `r` has for it. All
variables are renamed at once, and each one once: what `r` answers is not
looked up again. The names of called functions, the literals, the operators
and the positions stay as they are.
-/

namespace WorkflowScript

mutual

def Condition.rename (r : String → String) : Condition → Condition
  | ⟨first, rest⟩ => ⟨first.rename r, renameConjunctions r rest⟩

def renameConjunctions (r : String → String) : List Conjunction → List Conjunction
  | [] => []
  | c :: cs => c.rename r :: renameConjunctions r cs

def Conjunction.rename (r : String → String) : Conjunction → Conjunction
  | ⟨first, rest⟩ => ⟨first.rename r, renameClauses r rest⟩

def renameClauses (r : String → String) : List Clause → List Clause
  | [] => []
  | c :: cs => c.rename r :: renameClauses r cs

def Clause.rename (r : String → String) : Clause → Clause
  | ⟨negated, relation⟩ => ⟨negated, relation.rename r⟩

def Relation.rename (r : String → String) : Relation → Relation
  | ⟨left, none⟩ => ⟨left.rename r, none⟩
  | ⟨left, some (op, right)⟩ => ⟨left.rename r, some (op, right.rename r)⟩

def Expression.rename (r : String → String) : Expression → Expression
  | ⟨first, rest⟩ => ⟨first.rename r, renameAddends r rest⟩

def renameAddends (r : String → String) : List (AddOp × Term) → List (AddOp × Term)
  | [] => []
  | (op, t) :: rest => (op, t.rename r) :: renameAddends r rest

def Term.rename (r : String → String) : Term → Term
  | ⟨first, rest⟩ => ⟨first.rename r, renameMultipliers r rest⟩

def renameMultipliers (r : String → String) : List (MulOp × Factor) → List (MulOp × Factor)
  | [] => []
  | (op, f) :: rest => (op, f.rename r) :: renameMultipliers r rest

def Factor.rename (r : String → String) : Factor → Factor
  | .variable name position => .variable (r name) position
  | .call call => .call (call.rename r)
  | .integer text => .integer text
  | .string text => .string text
  | .bool value => .bool value
  | .group inner => .group (inner.rename r)

def Call.rename (r : String → String) : Call → Call
  | ⟨name, args, position⟩ => ⟨name, renameArguments r args, position⟩

def renameArguments (r : String → String) : List Expression → List Expression
  | [] => []
  | e :: es => e.rename r :: renameArguments r es

end

end WorkflowScript
