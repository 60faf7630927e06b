import WorkflowScript.Expression.Basic

/-!
# Equality of expressions

Whether two trees are the same, positions included, is decided layer by
layer.
-/

namespace WorkflowScript

mutual

def Condition.decEq : (a b : Condition) → Decidable (a = b)
  | ⟨f, r⟩, ⟨f', r'⟩ =>
    have := Conjunction.decEq f f'
    have := decEqConjunctions r r'
    decidable_of_decidable_of_iff (p := f = f' ∧ r = r') (by simp)

def decEqConjunctions : (a b : List Conjunction) → Decidable (a = b)
  | [], [] => isTrue rfl
  | [], _ :: _ => isFalse nofun
  | _ :: _, [] => isFalse nofun
  | x :: xs, y :: ys =>
    have := Conjunction.decEq x y
    have := decEqConjunctions xs ys
    decidable_of_decidable_of_iff (p := x = y ∧ xs = ys) (by simp)

def Conjunction.decEq : (a b : Conjunction) → Decidable (a = b)
  | ⟨f, r⟩, ⟨f', r'⟩ =>
    have := Clause.decEq f f'
    have := decEqClauses r r'
    decidable_of_decidable_of_iff (p := f = f' ∧ r = r') (by simp)

def decEqClauses : (a b : List Clause) → Decidable (a = b)
  | [], [] => isTrue rfl
  | [], _ :: _ => isFalse nofun
  | _ :: _, [] => isFalse nofun
  | x :: xs, y :: ys =>
    have := Clause.decEq x y
    have := decEqClauses xs ys
    decidable_of_decidable_of_iff (p := x = y ∧ xs = ys) (by simp)

def Clause.decEq : (a b : Clause) → Decidable (a = b)
  | ⟨n, r⟩, ⟨n', r'⟩ =>
    have := Relation.decEq r r'
    decidable_of_decidable_of_iff (p := n = n' ∧ r = r') (by simp)

def Relation.decEq : (a b : Relation) → Decidable (a = b)
  | ⟨l, none⟩, ⟨l', none⟩ =>
    have := Expression.decEq l l'
    decidable_of_decidable_of_iff (p := l = l') (by simp)
  | ⟨_, none⟩, ⟨_, some _⟩ => isFalse (by simp)
  | ⟨_, some _⟩, ⟨_, none⟩ => isFalse (by simp)
  | ⟨l, some (op, r)⟩, ⟨l', some (op', r')⟩ =>
    have := Expression.decEq l l'
    have := Expression.decEq r r'
    decidable_of_decidable_of_iff (p := l = l' ∧ op = op' ∧ r = r') (by simp)

def Expression.decEq : (a b : Expression) → Decidable (a = b)
  | ⟨f, r⟩, ⟨f', r'⟩ =>
    have := Term.decEq f f'
    have := decEqAddends r r'
    decidable_of_decidable_of_iff (p := f = f' ∧ r = r') (by simp)

def decEqAddends : (a b : List (AddOp × Term)) → Decidable (a = b)
  | [], [] => isTrue rfl
  | [], _ :: _ => isFalse nofun
  | _ :: _, [] => isFalse nofun
  | (op, x) :: xs, (op', y) :: ys =>
    have := Term.decEq x y
    have := decEqAddends xs ys
    decidable_of_decidable_of_iff (p := (op = op' ∧ x = y) ∧ xs = ys) (by simp)

def Term.decEq : (a b : Term) → Decidable (a = b)
  | ⟨f, r⟩, ⟨f', r'⟩ =>
    have := Factor.decEq f f'
    have := decEqMultipliers r r'
    decidable_of_decidable_of_iff (p := f = f' ∧ r = r') (by simp)

def decEqMultipliers : (a b : List (MulOp × Factor)) → Decidable (a = b)
  | [], [] => isTrue rfl
  | [], _ :: _ => isFalse nofun
  | _ :: _, [] => isFalse nofun
  | (op, x) :: xs, (op', y) :: ys =>
    have := Factor.decEq x y
    have := decEqMultipliers xs ys
    decidable_of_decidable_of_iff (p := (op = op' ∧ x = y) ∧ xs = ys) (by simp)

def Factor.decEq : (a b : Factor) → Decidable (a = b)
  | .variable n p, .variable n' p' =>
    decidable_of_decidable_of_iff (p := n = n' ∧ p = p') (by simp)
  | .call c, .call c' =>
    have := Call.decEq c c'
    decidable_of_decidable_of_iff (p := c = c') (by simp)
  | .integer t, .integer t' => decidable_of_decidable_of_iff (p := t = t') (by simp)
  | .string t, .string t' => decidable_of_decidable_of_iff (p := t = t') (by simp)
  | .bool b, .bool b' => decidable_of_decidable_of_iff (p := b = b') (by simp)
  | .group c, .group c' =>
    have := Condition.decEq c c'
    decidable_of_decidable_of_iff (p := c = c') (by simp)
  | .variable _ _, .call _ | .variable _ _, .integer _ | .variable _ _, .string _
  | .variable _ _, .bool _ | .variable _ _, .group _ => isFalse nofun
  | .call _, .variable _ _ | .call _, .integer _ | .call _, .string _
  | .call _, .bool _ | .call _, .group _ => isFalse nofun
  | .integer _, .variable _ _ | .integer _, .call _ | .integer _, .string _
  | .integer _, .bool _ | .integer _, .group _ => isFalse nofun
  | .string _, .variable _ _ | .string _, .call _ | .string _, .integer _
  | .string _, .bool _ | .string _, .group _ => isFalse nofun
  | .bool _, .variable _ _ | .bool _, .call _ | .bool _, .integer _
  | .bool _, .string _ | .bool _, .group _ => isFalse nofun
  | .group _, .variable _ _ | .group _, .call _ | .group _, .integer _
  | .group _, .string _ | .group _, .bool _ => isFalse nofun

def Call.decEq : (a b : Call) → Decidable (a = b)
  | ⟨n, as, p⟩, ⟨n', as', p'⟩ =>
    have := decEqArguments as as'
    decidable_of_decidable_of_iff (p := n = n' ∧ as = as' ∧ p = p') (by simp)

def decEqArguments : (a b : List Expression) → Decidable (a = b)
  | [], [] => isTrue rfl
  | [], _ :: _ => isFalse nofun
  | _ :: _, [] => isFalse nofun
  | x :: xs, y :: ys =>
    have := Expression.decEq x y
    have := decEqArguments xs ys
    decidable_of_decidable_of_iff (p := x = y ∧ xs = ys) (by simp)

end

instance : DecidableEq Condition := Condition.decEq
instance : DecidableEq Conjunction := Conjunction.decEq
instance : DecidableEq Clause := Clause.decEq
instance : DecidableEq Relation := Relation.decEq
instance : DecidableEq Expression := Expression.decEq
instance : DecidableEq Term := Term.decEq
instance : DecidableEq Factor := Factor.decEq
instance : DecidableEq Call := Call.decEq

end WorkflowScript
