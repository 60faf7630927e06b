import WorkflowScript.Statement.Equality
import WorkflowScript.Transform.Basic

/-!
# Transformers on a budget

A transformer that replaces what it is offered again and again need not come
to an end. It does if every replacement costs something and there is only so
much to spend: a budget is a number read off the state that no call of
a hook raises, and that every call lowers whose answer is another node than
the one offered.
-/

namespace WorkflowScript

instance Hook.decEqNode (h : Hook) : DecidableEq h.Node :=
  match h with
  | .statement => inferInstanceAs (DecidableEq Statement)
  | .definition => inferInstanceAs (DecidableEq Definition)
  | .declaration => inferInstanceAs (DecidableEq Declaration)
  | .assignment => inferInstanceAs (DecidableEq Assignment)
  | .conditional => inferInstanceAs (DecidableEq Conditional)
  | .loop => inferInstanceAs (DecidableEq Loop)
  | .call => inferInstanceAs (DecidableEq Call)
  | .condition => inferInstanceAs (DecidableEq Condition)
  | .conjunction => inferInstanceAs (DecidableEq Conjunction)
  | .clause => inferInstanceAs (DecidableEq Clause)
  | .relation => inferInstanceAs (DecidableEq Relation)
  | .expression => inferInstanceAs (DecidableEq Expression)
  | .term => inferInstanceAs (DecidableEq Term)
  | .factor => inferInstanceAs (DecidableEq Factor)

namespace Transformer

variable {σ : Type}

/-- Each call of a hook leaves its node as it is and does not raise the
budget, or lowers the budget, whatever its answer. -/
def Budgeted (t : Transformer σ) (budget : σ → Nat) : Prop :=
  ∀ (h : Hook) (node : h.Node) (s : σ),
    (t.replace h node s).1 = node ∧ budget (t.replace h node s).2 ≤ budget s ∨
      budget (t.replace h node s).2 < budget s

/-- A transformer that also counts the calls whose answer is another node
than the one offered. -/
def counting (t : Transformer σ) : Transformer (σ × Nat) where
  replace h node state :=
    let (node', inner) := t.replace h node state.1
    (node', inner, if node' = node then state.2 else state.2 + 1)

end Transformer

end WorkflowScript
