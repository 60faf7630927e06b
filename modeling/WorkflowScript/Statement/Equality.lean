import WorkflowScript.Expression.Equality
import WorkflowScript.Statement.Basic

/-!
# Equality of statements

As for expressions: decided part by part, positions included.
-/

namespace WorkflowScript

deriving instance DecidableEq for Declaration, Assignment

mutual

def Statement.decEq : (a b : Statement) → Decidable (a = b)
  | .definition d, .definition d' =>
    have := Definition.decEq d d'
    decidable_of_decidable_of_iff (p := d = d') (by simp)
  | .declaration d, .declaration d' =>
    decidable_of_decidable_of_iff (p := d = d') (by simp)
  | .assignment a, .assignment a' =>
    decidable_of_decidable_of_iff (p := a = a') (by simp)
  | .conditional c, .conditional c' =>
    have := Conditional.decEq c c'
    decidable_of_decidable_of_iff (p := c = c') (by simp)
  | .loop l, .loop l' =>
    have := Loop.decEq l l'
    decidable_of_decidable_of_iff (p := l = l') (by simp)
  | .call c, .call c' =>
    decidable_of_decidable_of_iff (p := c = c') (by simp)
  | .definition _, .declaration _ | .definition _, .assignment _
  | .definition _, .conditional _ | .definition _, .loop _
  | .definition _, .call _ => isFalse nofun
  | .declaration _, .definition _ | .declaration _, .assignment _
  | .declaration _, .conditional _ | .declaration _, .loop _
  | .declaration _, .call _ => isFalse nofun
  | .assignment _, .definition _ | .assignment _, .declaration _
  | .assignment _, .conditional _ | .assignment _, .loop _
  | .assignment _, .call _ => isFalse nofun
  | .conditional _, .definition _ | .conditional _, .declaration _
  | .conditional _, .assignment _ | .conditional _, .loop _
  | .conditional _, .call _ => isFalse nofun
  | .loop _, .definition _ | .loop _, .declaration _ | .loop _, .assignment _
  | .loop _, .conditional _ | .loop _, .call _ => isFalse nofun
  | .call _, .definition _ | .call _, .declaration _ | .call _, .assignment _
  | .call _, .conditional _ | .call _, .loop _ => isFalse nofun

def Definition.decEq : (a b : Definition) → Decidable (a = b)
  | ⟨n, ps, b, r, p⟩, ⟨n', ps', b', r', p'⟩ =>
    have := decEqStatements b b'
    decidable_of_decidable_of_iff (p := n = n' ∧ ps = ps' ∧ b = b' ∧ r = r' ∧ p = p') (by simp)

def Conditional.decEq : (a b : Conditional) → Decidable (a = b)
  | ⟨c, b, p⟩, ⟨c', b', p'⟩ =>
    have := decEqStatements b b'
    decidable_of_decidable_of_iff (p := c = c' ∧ b = b' ∧ p = p') (by simp)

def Loop.decEq : (a b : Loop) → Decidable (a = b)
  | ⟨i, c, s, b, p⟩, ⟨i', c', s', b', p'⟩ =>
    have := decEqStatements b b'
    decidable_of_decidable_of_iff (p := i = i' ∧ c = c' ∧ s = s' ∧ b = b' ∧ p = p') (by simp)

def decEqStatements : (a b : List Statement) → Decidable (a = b)
  | [], [] => isTrue rfl
  | [], _ :: _ => isFalse nofun
  | _ :: _, [] => isFalse nofun
  | x :: xs, y :: ys =>
    have := Statement.decEq x y
    have := decEqStatements xs ys
    decidable_of_decidable_of_iff (p := x = y ∧ xs = ys) (by simp)

end

instance : DecidableEq Statement := Statement.decEq
instance : DecidableEq Definition := Definition.decEq
instance : DecidableEq Conditional := Conditional.decEq
instance : DecidableEq Loop := Loop.decEq

end WorkflowScript
