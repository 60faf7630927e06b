import WorkflowScript.Proofs.Session.Counter

/-!
# Too few levels

A parser with fewer levels does what one with more does, or fails because of
the levels where it stops. That is a congruence, and there is nothing to check
where the recursive rules go on with one level less on both sides; where the
levels are used up on one side, that side fails.
-/

namespace WorkflowScript

open WorkflowScript.Grammar

variable {σ α β : Type}

namespace Parser

/-- At every cursor `p` does what `q` does, or fails for want of a level. -/
def ShortOf (p q : Parser σ α) : Prop :=
  ∀ c, p c = q c ∨ ∃ d, p.Fails c ⟨d.current, .nesting⟩ d

protected theorem ShortOf.bind {p q : Parser σ α} {f g : α → Parser σ β} (hp : ShortOf p q)
    (hf : ∀ a, ShortOf (f a) (g a)) : ShortOf (p >>= f) (q >>= g) := by
  intro c
  rcases hp c with hpc | ⟨d, hfails⟩
  · rcases hq : q c with ⟨e | a, events, d⟩
    · left
      rw [bind_apply_error (hpc.trans hq), bind_apply_error hq]
    · rcases hf a d with hfd | ⟨d', hfails⟩
      · left
        rw [bind_apply_ok (hpc.trans hq), bind_apply_ok hq, hfd]
      · exact .inr ⟨d', fails_bind.mpr (.inr ⟨a, d, ⟨events, hpc.trans hq⟩, hfails⟩)⟩
  · exact .inr ⟨d, fails_bind.mpr (.inl hfails)⟩

theorem ShortOf.tooDeep (q : Parser σ α) : ShortOf Grammar.tooDeep q :=
  fun c => .inr ⟨c, fails_unexpected.mpr ⟨rfl, rfl⟩⟩

/-- To be short of levels is a congruence. -/
def shortage [TokenSource σ] : Congruence σ σ where
  Rel := ShortOf
  pure _ _ := .inl rfl
  bind := ShortOf.bind
  peek _ := .inl rfl
  place _ := .inl rfl
  unexpected _ _ := .inl rfl
  notify _ _ := .inl rfl
  advance _ := .inl rfl
  sized h c := h (c.size + 1) c

end Parser

namespace Grammar

open WorkflowScript.Parser

variable [TokenSource σ]

/-- With fewer levels the recursive rules are short of those with more. -/
theorem related_rulesWithin {m n : Nat} (h : m ≤ n) :
    (rulesWithin m).Related shortage (rulesWithin n : Rules σ) := by
  induction m generalizing n with
  | zero =>
      have hany (r q : Rules σ) : r.Related .any q := ⟨trivial, trivial, trivial⟩
      rw [rulesWithin_zero (rulesWithin 0)]
      cases n with
      | zero =>
          rw [rulesWithin_zero (rulesWithin 0)]
          exact (hany _ _).turn fun _ => ShortOf.tooDeep _
      | succ n =>
          rw [rulesWithin_succ]
          exact (hany _ _).turn fun _ => ShortOf.tooDeep _
  | succ m ih =>
      cases n with
      | zero => cases h
      | succ n =>
          rw [rulesWithin_succ, rulesWithin_succ]
          exact (ih (Nat.le_of_succ_le_succ h)).turn id

end Grammar

end WorkflowScript
