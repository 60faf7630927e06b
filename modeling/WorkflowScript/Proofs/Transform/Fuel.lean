import WorkflowScript.Proofs.Transform.Congruence

/-!
# Fuel and answers

A visit that has an answer has the same answer with more fuel. So fuel says
only whether there is an answer, and never which one: what a transformer
makes of a fragment, if anything, is one value, one text and one state
(`Fragment.Becomes.unique`).
-/

namespace WorkflowScript

namespace Visit

variable {σ α β : Type}

/-- A sequence answers if its parts do, and prints what they print. -/
theorem bind_eq_some {x : Visit σ α} {f : α → Visit σ β} {s : σ} {v : Visited σ β} :
    (x >>= f) s = some v ↔
      ∃ a b, x s = some a ∧ f a.value a.state = some b ∧
        v = { b with text := a.text ++ b.text } := by
  change Visit.bind x f s = some v ↔ _
  unfold Visit.bind
  constructor
  · intro h
    split at h
    · cases h
    next a ha =>
        split at h
        · cases h
        next b hb => exact ⟨a, b, ha, hb, (Option.some.inj h).symm⟩
  · rintro ⟨a, b, ha, hb, rfl⟩
    simp only [ha, hb]

/-- Wherever `x` has an answer, `y` has the same one. -/
def Within (x y : Visit σ α) : Prop := ∀ s v, x s = some v → y s = some v

theorem Within.bind {x y : Visit σ α} {f g : α → Visit σ β} (h : Within x y)
    (hf : ∀ a, Within (f a) (g a)) : Within (x >>= f) (y >>= g) := by
  intro s v hv
  obtain ⟨a, b, ha, hb, rfl⟩ := bind_eq_some.mp hv
  exact bind_eq_some.mpr ⟨a, b, h s a ha, hf _ _ b hb, rfl⟩

/-- What gives up at once answers nowhere, so more fuel only adds answers. -/
def within (t : Transformer σ) : Congruence t t where
  Rel := Within
  pure _ _ _ h := h
  bind := Within.bind
  emit _ _ _ h := h
  offer _ _ _ _ h := h
  exhausted _ _ _ h := nomatch h

end Visit

namespace Fragment

variable {σ : Type} {t : Transformer σ}

theorem transform_within {m n : Nat} (hmn : m ≤ n) (f : Fragment) :
    Visit.Within (f.transform t m) (f.transform t n) :=
  (Visit.within t).transform hmn f

/-- The transformer, started in the state, comes to the end of the fragment
and leaves this. -/
def Becomes (t : Transformer σ) (f : Fragment) (s : σ) (v : Visited σ Fragment) : Prop :=
  ∃ fuel, f.transform t fuel s = some v

/-- The fuel has no say in what comes out. -/
theorem Becomes.unique {f : Fragment} {s : σ} {v w : Visited σ Fragment} (h : f.Becomes t s v)
    (h' : f.Becomes t s w) : v = w := by
  obtain ⟨m, hm⟩ := h
  obtain ⟨n, hn⟩ := h'
  have hv := f.transform_within (Nat.le_max_left m n) s v hm
  have hw := f.transform_within (Nat.le_max_right m n) s w hn
  exact Option.some.inj (hv.symm.trans hw)

end Fragment

end WorkflowScript
