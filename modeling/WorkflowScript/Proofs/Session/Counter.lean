import WorkflowScript.Proofs.Workflow.Congruence

/-!
# The counter and the free levels say the same

With `opened` levels open there are `maxNesting - opened` free. A parser that
counts `Mirrors` one that is told its free levels if it does the same from any
cursor, on success and on failure, and has the counter in the end where it
was in the beginning. That is a congruence (`mirroring`), so productions
mirror one another if the recursive rules do. Only `nested` touches the
counter, so only its rules look at the number.

The result is `mirrors_countingRules`, and with it that the rules with a
counter call themselves as they are meant to (`countingOver_countingRules`).
-/

namespace WorkflowScript

/-! ## Cursors and outcomes with a counter -/

variable {σ α β : Type}

/-- The cursor with a counter beside its source. -/
def Cursor.counting (opened : Nat) (c : Cursor σ) : Cursor (Counted σ) :=
  ⟨⟨c.source, opened⟩, c.current⟩

def Outcome.counting (opened : Nat) (o : Outcome σ α) : Outcome (Counted σ) α :=
  ⟨o.result, o.events, o.cursor.counting opened⟩

theorem Cursor.counting_ofSource [TokenSource σ] (s : σ) :
    (ofSource s).counting 0 = fresh s := rfl

/-! ## Mirroring -/

namespace Parser

variable {opened : Nat}

/-- With `opened` levels open `p` does what `q` does, and leaves the counter
as it was. -/
def Mirrors (opened : Nat) (p : Parser (Counted σ) α) (q : Parser σ α) : Prop :=
  ∀ c, p (c.counting opened) = (q c).counting opened

protected theorem Mirrors.bind {p : Parser (Counted σ) α} {q : Parser σ α}
    {f : α → Parser (Counted σ) β} {g : α → Parser σ β} (hp : Mirrors opened p q)
    (hf : ∀ a, Mirrors opened (f a) (g a)) : Mirrors opened (p >>= f) (q >>= g) := by
  intro c
  have hpc := hp c
  rcases hq : q c with ⟨e | a, events, d⟩
  · rw [hq] at hpc
    rw [bind_apply_error hpc, bind_apply_error hq]
    rfl
  · rw [hq] at hpc
    have hfd := hf a d
    rw [bind_apply_ok hpc, bind_apply_ok hq]
    show (f a (d.counting opened)).after events = _
    rw [hfd]
    rfl

/-- To mirror with a number of levels open is a congruence. -/
def mirroring [TokenSource σ] (opened : Nat) : Congruence (Counted σ) σ where
  Rel := Mirrors opened
  pure _ _ := rfl
  bind := Mirrors.bind
  peek _ := rfl
  place _ := rfl
  unexpected _ _ := rfl
  notify _ _ := rfl
  advance _ := rfl
  sized h c := h (c.size + 1) c

end Parser

namespace Grammar

open WorkflowScript.Parser

variable {opened : Nat}

/-! ## Nesting -/

/-- A level is opened for the parser and closed behind it. -/
theorem mirrors_nested {p : Parser (Counted σ) α} {q : Parser σ α} (hfree : opened < maxNesting)
    (h : Mirrors (opened + 1) p q) : Mirrors opened (nested p) q := by
  intro c
  have hopened : (c.counting opened).source.opened = opened := rfl
  have hinner : p ((c.counting opened).setOpened (opened + 1)) = (q c).counting (opened + 1) := h c
  rw [nested, hopened, if_neg (Nat.not_le.mpr hfree), hinner]
  rfl

theorem mirrors_nested_full {p : Parser (Counted σ) α} (hfull : maxNesting ≤ opened) :
    Mirrors opened (nested p) (tooDeep : Parser σ α) := by
  intro c
  have hopened : (c.counting opened).source.opened = opened := rfl
  rw [nested, hopened, if_pos hfull]
  rfl

variable [TokenSource σ]

/-! ## Tying the rules together -/

/-- Without a counter nothing is wrapped around the nested parts, -/
theorem rulesWithin_succ (levels : Nat) :
    (rulesWithin (levels + 1) : Rules σ) = .turn (fun p => p) (rulesWithin levels) := rfl

/-- unless no level is free. -/
theorem rulesWithin_zero (r : Rules σ) : rulesWithin 0 = .turn (fun _ => tooDeep) r := rfl

theorem countingOver_eq (inner : Rules (Counted σ)) : countingOver inner = .turn nested inner := rfl

/-- One turn of the rules with a counter, while a level is free. -/
theorem related_countingOver {inner : Rules (Counted σ)} {levels : Nat}
    (hfree : opened < maxNesting)
    (h : inner.Related (mirroring (opened + 1)) (rulesWithin levels)) :
    (countingOver inner).Related (mirroring opened) (rulesWithin (levels + 1) : Rules σ) := by
  rw [countingOver_eq, rulesWithin_succ]
  exact h.turn (mirrors_nested hfree)

/-- One turn of the rules with a counter, when no level is free. What is
nested does not matter then. -/
theorem related_countingOver_full (inner : Rules (Counted σ)) (hfull : maxNesting ≤ opened) :
    (countingOver inner).Related (mirroring opened) (rulesWithin 0 : Rules σ) := by
  have hany : inner.Related .any (rulesWithin 0 : Rules σ) := ⟨trivial, trivial, trivial⟩
  rw [countingOver_eq, rulesWithin_zero (rulesWithin 0)]
  exact hany.turn fun _ => mirrors_nested_full hfull

/-- With more turns than free levels the turns do not run out. -/
theorem related_countingTurns (turns : Nat) (hturns : maxNesting - opened < turns) :
    (countingTurns turns).Related (mirroring opened)
      (rulesWithin (maxNesting - opened) : Rules σ) := by
  induction turns generalizing opened with
  | zero => cases hturns
  | succ turns ih =>
      rcases Nat.lt_or_ge opened maxNesting with hfree | hfull
      · have hlevels : maxNesting - opened = maxNesting - (opened + 1) + 1 := by omega
        rw [hlevels]
        exact related_countingOver hfree (ih (by omega))
      · rw [Nat.sub_eq_zero_of_le hfull]
        exact related_countingOver_full _ hfull

theorem related_countingRules :
    countingRules.Related (mirroring opened) (rulesWithin (maxNesting - opened) : Rules σ) :=
  related_countingTurns _ (Nat.lt_succ_of_le (Nat.sub_le _ _))

omit [TokenSource σ] in
/-- Parsers that mirror one and the same with any number of open levels are
the same. -/
theorem eq_of_mirrors {p p' : Parser (Counted σ) α} {q : Nat → Parser σ α}
    (h : ∀ opened, Mirrors opened p (q opened)) (h' : ∀ opened, Mirrors opened p' (q opened)) :
    p = p' := by
  funext ⟨⟨source, opened⟩, current⟩
  exact (h opened ⟨source, current⟩).trans (h' opened ⟨source, current⟩).symm

/-- The rules with a counter are rules over themselves. -/
theorem countingOver_countingRules :
    countingOver countingRules = (countingRules : Rules (Counted σ)) := by
  have h : ∀ opened, (countingOver countingRules).Related (mirroring opened)
      (rulesWithin (maxNesting - opened) : Rules σ) :=
    fun _ => related_countingTurns (maxNesting + 2) (by omega)
  have h' : ∀ opened, countingRules.Related (mirroring opened)
      (rulesWithin (maxNesting - opened) : Rules σ) := fun _ => related_countingRules
  rw [Rules.mk.injEq]
  exact ⟨eq_of_mirrors (fun _ => (h _).factor) fun _ => (h' _).factor,
    eq_of_mirrors (fun _ => (h _).arguments) fun _ => (h' _).arguments,
    eq_of_mirrors (fun _ => (h _).statement) fun _ => (h' _).statement⟩

theorem production_rulesWithin (p : Production) :
    (rulesWithin maxNesting : Rules σ).production p = p.parser := by
  cases p <;> rfl

end Grammar

open Grammar in
/-- A production does the same with a counter as without one, and the counter
is back at zero afterwards. -/
theorem Production.mirrors_counting [TokenSource σ] (p : Production) :
    Parser.Mirrors 0 (countingRules.production p : Parser (Counted σ) _) p.parser := by
  have h : countingRules.Related (Parser.mirroring 0) (rulesWithin maxNesting : Rules σ) :=
    related_countingRules
  have hproduction := h.production p
  rwa [production_rulesWithin] at hproduction

/-- And so does a step. -/
theorem Step.mirrors_counting [TokenSource σ] (step : Step) :
    Parser.Mirrors 0 (step.counting : Parser (Counted σ) _) (step.parser : Parser σ _) := by
  let C : Parser.Congruence (Counted σ) σ := Parser.mirroring 0
  cases step with
  | production p => exact C.map some p.mirrors_counting
  | endOfInput => exact C.bind (C.expect _) fun _ => C.pure _

end WorkflowScript
