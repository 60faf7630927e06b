import WorkflowScript.Proofs.Transform.Fuel
import WorkflowScript.Transform.Budget

/-!
# Transformers that note more

A transformer extends another one if it answers every node alike and only
keeps more in its state, of which the other's state is a part. The two come
to the end of the same fragments, and leave the same tree and the same text
(`Fragment.becomes_part_iff`). So whatever the larger state holds in the end,
a count or a list of calls, is a fact about the smaller transformer.
-/

namespace WorkflowScript

variable {σ τ α β : Type}

/-- The same answer, with another view of the state. -/
def Visited.mapState (part : τ → σ) (w : Visited τ α) : Visited σ α :=
  ⟨w.value, w.text, part w.state⟩

/-- The transformer `t'` does to a part of its state what `t` does, and answers as `t` does. -/
def Transformer.Extends (t' : Transformer τ) (t : Transformer σ) (part : τ → σ) : Prop :=
  ∀ (h : Hook) (node : h.Node) (s : τ),
    t.replace h node (part s) = ((t'.replace h node s).1, part (t'.replace h node s).2)

theorem Transformer.traced_extends (t : Transformer σ) : t.traced.Extends t Prod.fst :=
  fun _ _ _ => rfl

theorem Transformer.counting_extends (t : Transformer σ) : t.counting.Extends t Prod.fst :=
  fun _ _ _ => rfl

namespace Visit.Congruence

variable {t : Transformer σ} {t' : Transformer τ} {part : τ → σ}

/-- Where the larger state gives an answer, the smaller one gives its part. -/
def forgetting (h : t'.Extends t part) : Congruence t' t where
  Rel y x := ∀ s w, y s = some w → x (part s) = some (w.mapState part)
  pure _ _ _ hw := Option.some.inj hw ▸ rfl
  bind hx hf s w hw := by
    obtain ⟨a, b, ha, hb, rfl⟩ := bind_eq_some.mp hw
    exact bind_eq_some.mpr ⟨_, _, hx s a ha, hf _ _ b hb, rfl⟩
  emit _ _ _ hw := Option.some.inj hw ▸ rfl
  offer hook node s w hw := by
    obtain rfl := Option.some.inj hw
    rw [Visit.offer, h hook node s]
    rfl
  exhausted _ _ _ hw := nomatch hw

/-- Where the smaller state gives an answer, the larger one gives one with
that part. -/
def noting (h : t'.Extends t part) : Congruence t t' where
  Rel x y := ∀ s v, x (part s) = some v → ∃ w, y s = some w ∧ v = w.mapState part
  pure a s _ hv := ⟨⟨a, "", s⟩, rfl, (Option.some.inj hv).symm⟩
  bind hx hf s v hv := by
    obtain ⟨a, b, ha, hb, rfl⟩ := bind_eq_some.mp hv
    obtain ⟨a', ha', rfl⟩ := hx s a ha
    obtain ⟨b', hb', rfl⟩ := hf _ _ b hb
    exact ⟨_, bind_eq_some.mpr ⟨a', b', ha', hb', rfl⟩, rfl⟩
  emit text s _ hv := ⟨⟨(), text, s⟩, rfl, (Option.some.inj hv).symm⟩
  offer hook node s v hv := by
    refine ⟨_, rfl, ?_⟩
    rw [Visit.offer, h hook node s] at hv
    exact (Option.some.inj hv).symm
  exhausted _ _ _ hv := nomatch hv

/-- What no call of a hook raises is not raised by a visit. -/
def lowering {cost : σ → Nat}
    (h : ∀ (hook : Hook) (node : hook.Node) s, cost (t.replace hook node s).2 ≤ cost s) :
    Congruence t t where
  Rel x _ := ∀ s v, x s = some v → cost v.state ≤ cost s
  pure _ _ _ hv := Option.some.inj hv ▸ Nat.le_refl _
  bind hx hf s v hv := by
    obtain ⟨a, b, ha, hb, rfl⟩ := bind_eq_some.mp hv
    exact Nat.le_trans (hf _ _ b hb) (hx s a ha)
  emit _ _ _ hv := Option.some.inj hv ▸ Nat.le_refl _
  offer hook node s _ hv := Option.some.inj hv ▸ h hook node s
  exhausted _ _ _ hv := nomatch hv

end Visit.Congruence

namespace Fragment

variable {t : Transformer σ} {t' : Transformer τ} {part : τ → σ} {f : Fragment}

/-- A fragment becomes the same with more in the state. -/
theorem becomes_part_iff (h : t'.Extends t part) {s : τ} {v : Visited σ Fragment} :
    f.Becomes t (part s) v ↔ ∃ w, f.Becomes t' s w ∧ v = w.mapState part := by
  constructor
  · rintro ⟨fuel, hv⟩
    obtain ⟨w, hw, rfl⟩ :=
      (Visit.Congruence.noting h).transform (Nat.le_refl fuel) f s v hv
    exact ⟨w, ⟨fuel, hw⟩, rfl⟩
  · rintro ⟨w, ⟨fuel, hw⟩, rfl⟩
    exact ⟨fuel, (Visit.Congruence.forgetting h).transform (Nat.le_refl fuel) f s w hw⟩

theorem Becomes.cost_le (cost : σ → Nat)
    (h : ∀ (hook : Hook) (node : hook.Node) s, cost (t.replace hook node s).2 ≤ cost s) {s : σ}
    {v : Visited σ Fragment} (hv : f.Becomes t s v) : cost v.state ≤ cost s := by
  obtain ⟨fuel, hv⟩ := hv
  exact (Visit.Congruence.lowering h).transform (Nat.le_refl fuel) f s v hv

end Fragment

end WorkflowScript
