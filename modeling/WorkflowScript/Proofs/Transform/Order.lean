import WorkflowScript.Proofs.Transform.Answers
import WorkflowScript.Proofs.Transform.Extension

/-!
# The order in which nodes are offered

A traced transformer notes which hooks it calls. A visit calls them in the
order in which the nodes stand in the tree it returns, once for each: not
the nodes that were offered count, but the answers, below which the visit goes
on. So the list noted in the end is read off the result
(`hooks_in_preorder`).
-/

namespace WorkflowScript

/-- Noting the calls changes nothing else about a transformation, and where
it comes to an end, the hooks called are those of the nodes of the returned
tree, in order and once for each. -/
theorem hooks_in_preorder {σ : Type} (t : Transformer σ) (f : Fragment) (s : σ)
    (w : Visited (σ × List Hook) Fragment) :
    f.Becomes t.traced (s, []) w ↔
      ∃ v, f.Becomes t s v ∧ w = ⟨v.value, v.text, (v.state, v.value.hooks)⟩ := by
  constructor
  · intro hw
    obtain ⟨value, text, inner, calls⟩ := w
    obtain rfl : calls = value.hooks := hw.follows.2
    exact ⟨⟨value, text, inner⟩,
      (Fragment.becomes_part_iff t.traced_extends).mpr ⟨_, hw, rfl⟩, rfl⟩
  · rintro ⟨v, hv, rfl⟩
    obtain ⟨⟨value, text, inner, calls⟩, hw, rfl⟩ :=
      (Fragment.becomes_part_iff (s := (s, [])) t.traced_extends).mp hv
    obtain rfl : calls = value.hooks := hw.follows.2
    exact hw

/-- Puts a call of `f` in the place of each variable `x`, and counts these. -/
def calling : Transformer Nat where
  replace
    | .factor, .variable "x" position, n =>
      (.call ⟨"f", [(Factor.variable "y" position).toExpression], position⟩, n + 1)
    | _, other, n => (other, n)

/-- In `z = x` the variable is offered once, and below it the parts of the call
that it was answered with. -/
theorem calling_hooks :
    let x := Factor.variable "x" .start
    let call := Factor.call ⟨"f", [(Factor.variable "y" .start).toExpression], .start⟩
    let result : Fragment := .statement (.assignment ⟨"z", call.toExpression, .start⟩)
    (Fragment.statement (.assignment ⟨"z", x.toExpression, .start⟩)).Becomes calling.traced (0, [])
      ⟨result, "z = f(y)", 1,
        [.statement, .assignment, .expression, .term, .factor, .call, .expression, .term,
          .factor]⟩ := by
  intro x call result
  have h : (Fragment.statement (.assignment ⟨"z", x.toExpression, .start⟩)).Becomes calling 0
      ⟨result, "z = f(y)", 1⟩ := ⟨3, by cbv⟩
  exact (hooks_in_preorder calling _ 0 _).mpr ⟨_, h, rfl⟩

end WorkflowScript
