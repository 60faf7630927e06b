import WorkflowScript.Proofs.Transform.Answers
import WorkflowScript.Proofs.Transform.Extension
import WorkflowScript.Proofs.Transform.Identity

/-!
# The text printed is that of the tree returned

Whatever the transformer answers, the text of a visit is the normal written
form of the tree that is put together in the end (`Fragment.Becomes.text_eq`):
this is known of a transformer that notes its calls, and noting them changes
nothing about the text.

The identity transformer prints just that form and changes nothing, so the
text of a transformation is what the identity prints for its result
(`Fragment.becomes_identity`).
-/

namespace WorkflowScript

namespace Fragment

variable {σ : Type} {t : Transformer σ}

theorem Becomes.text_eq {f : Fragment} {s : σ} {v : Visited σ Fragment} (h : f.Becomes t s v) :
    v.text = v.value.print := by
  obtain ⟨w, hw, rfl⟩ := (becomes_part_iff (s := (s, [])) t.traced_extends).mp h
  exact hw.follows.1

/-- Reprinting a fragment always ends, with its normal written form. -/
theorem reprint_eq (f : Fragment) : f.reprint = some ⟨f, f.print, ()⟩ := by
  obtain ⟨text, h⟩ := f.transform_keeps (Nat.le_refl _)
  obtain rfl : text = f.print := Becomes.text_eq ⟨f.fuel, h⟩
  exact h

/-- The identity comes to the end of every fragment, and leaves it as it is. -/
theorem becomes_identity (f : Fragment) (w : Visited Unit Fragment) :
    f.Becomes .identity () w ↔ w = ⟨f, f.print, ()⟩ := by
  have hself : f.Becomes .identity () ⟨f, f.print, ()⟩ := ⟨f.fuel, f.reprint_eq⟩
  constructor
  · exact fun hw => hw.unique hself
  · rintro rfl
    exact hself

/-- The text and the tree of a transformation never disagree: where a
transformer comes to an end, the identity prints the same text for the tree
that was returned. And the identity returns every tree as it is. -/
theorem text_agrees_with_tree (t : Transformer σ) (f : Fragment) :
    (∀ s v, f.Becomes t s v →
      ∀ w, v.value.Becomes .identity () w ↔ w = ⟨v.value, v.text, ()⟩) ∧
      ∀ w, f.Becomes .identity () w ↔ w = ⟨f, f.print, ()⟩ := by
  refine ⟨fun s v hv w => ?_, f.becomes_identity⟩
  rw [hv.text_eq]
  exact v.value.becomes_identity w

/-- Turns every clause around, and counts the clauses. -/
def turning : Transformer Nat where
  replace
    | .clause, c, n => (⟨!c.negated, c.relation⟩, n + 1)
    | _, other, n => (other, n)

/-- A guard that is turned around shows the `not` that it has got. -/
theorem turned_text_agrees :
    let ready := (Factor.variable "ready" .start).toExpression
    let turned : Fragment := .condition ⟨⟨⟨true, ⟨ready, none⟩⟩, []⟩, []⟩
    (Fragment.condition ready.toCondition).Becomes turning 0 ⟨turned, "not ready", 1⟩ ∧
      ∀ w, turned.Becomes .identity () w ↔ w = ⟨turned, "not ready", ()⟩ := by
  intro ready turned
  have h : (Fragment.condition ready.toCondition).Becomes turning 0 ⟨turned, "not ready", 1⟩ :=
    ⟨1, by cbv⟩
  exact ⟨h, (text_agrees_with_tree turning _).1 0 _ h⟩

end Fragment

end WorkflowScript
