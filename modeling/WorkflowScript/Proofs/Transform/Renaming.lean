import WorkflowScript.Proofs.Transform.Agreement
import WorkflowScript.Target.Expression
import WorkflowScript.Transform.Renaming

/-!
# Renaming by transforming and by resolving

The renaming transformer visits a tree as the identity visits the renamed
tree (`Transform.condition_renaming`): a variable is renamed when it is
offered, and a visit does not offer again what it has been answered. So the
transformation always ends, with `rename`.

A renamed tree has the code of the tree itself under a resolver that renames
first (`Condition.generate_rename`), so it makes no difference whether the
names are changed in the tree or on the way out.
-/

namespace WorkflowScript

/-! ## Renaming twice -/

section Twice

variable (r s : String → String)

mutual

theorem Condition.rename_rename : (c : Condition) → (c.rename r).rename s = c.rename (s ∘ r)
  | ⟨first, rest⟩ => by
      simp only [Condition.rename, first.rename_rename, renameConjunctions_twice rest]

theorem renameConjunctions_twice : (cs : List Conjunction) →
    renameConjunctions s (renameConjunctions r cs) = renameConjunctions (s ∘ r) cs
  | [] => rfl
  | c :: cs => by
      simp only [renameConjunctions, c.rename_rename, renameConjunctions_twice cs]

theorem Conjunction.rename_rename : (c : Conjunction) →
    (c.rename r).rename s = c.rename (s ∘ r)
  | ⟨first, rest⟩ => by
      simp only [Conjunction.rename, first.rename_rename, renameClauses_twice rest]

theorem renameClauses_twice : (cs : List Clause) →
    renameClauses s (renameClauses r cs) = renameClauses (s ∘ r) cs
  | [] => rfl
  | c :: cs => by simp only [renameClauses, c.rename_rename, renameClauses_twice cs]

theorem Clause.rename_rename : (c : Clause) → (c.rename r).rename s = c.rename (s ∘ r)
  | ⟨_, relation⟩ => by simp only [Clause.rename, relation.rename_rename]

theorem Relation.rename_rename : (x : Relation) → (x.rename r).rename s = x.rename (s ∘ r)
  | ⟨left, none⟩ => by simp only [Relation.rename, left.rename_rename]
  | ⟨left, some (op, right)⟩ => by
      simp only [Relation.rename, left.rename_rename, right.rename_rename]

theorem Expression.rename_rename : (e : Expression) →
    (e.rename r).rename s = e.rename (s ∘ r)
  | ⟨first, rest⟩ => by
      simp only [Expression.rename, first.rename_rename, renameAddends_twice rest]

theorem renameAddends_twice : (rest : List (AddOp × Term)) →
    renameAddends s (renameAddends r rest) = renameAddends (s ∘ r) rest
  | [] => rfl
  | (op, t) :: rest => by simp only [renameAddends, t.rename_rename, renameAddends_twice rest]

theorem Term.rename_rename : (t : Term) → (t.rename r).rename s = t.rename (s ∘ r)
  | ⟨first, rest⟩ => by
      simp only [Term.rename, first.rename_rename, renameMultipliers_twice rest]

theorem renameMultipliers_twice : (rest : List (MulOp × Factor)) →
    renameMultipliers s (renameMultipliers r rest) = renameMultipliers (s ∘ r) rest
  | [] => rfl
  | (op, f) :: rest => by
      simp only [renameMultipliers, f.rename_rename, renameMultipliers_twice rest]

theorem Factor.rename_rename : (f : Factor) → (f.rename r).rename s = f.rename (s ∘ r)
  | .variable _ _ | .integer _ | .string _ | .bool _ => rfl
  | .call call => by simp only [Factor.rename, call.rename_rename]
  | .group inner => by simp only [Factor.rename, inner.rename_rename]

theorem Call.rename_rename : (c : Call) → (c.rename r).rename s = c.rename (s ∘ r)
  | ⟨name, args, position⟩ => by simp only [Call.rename, renameArguments_twice args]

theorem renameArguments_twice : (es : List Expression) →
    renameArguments s (renameArguments r es) = renameArguments (s ∘ r) es
  | [] => rfl
  | e :: es => by simp only [renameArguments, e.rename_rename, renameArguments_twice es]

end

end Twice

/-! ## The code of renamed trees -/

section Code

variable (names : Resolver) (r : String → String)

theorem isEmpty_renameAddends (rest : List (AddOp × Term)) :
    (renameAddends r rest).isEmpty = rest.isEmpty := by
  cases rest <;> rfl

theorem isEmpty_renameMultipliers (rest : List (MulOp × Factor)) :
    (renameMultipliers r rest).isEmpty = rest.isEmpty := by
  cases rest <;> rfl

mutual

theorem Condition.generate_rename : (c : Condition) →
    (c.rename r).generate names = c.generate (names ∘ r)
  | ⟨first, rest⟩ => by
      simp only [Condition.rename, Condition.generate, first.generate_rename,
        generateAlternatives_rename rest]

theorem generateAlternatives_rename : (cs : List Conjunction) →
    generateAlternatives names (renameConjunctions r cs) = generateAlternatives (names ∘ r) cs
  | [] => rfl
  | c :: cs => by
      simp only [renameConjunctions, generateAlternatives, c.generate_rename,
        generateAlternatives_rename cs]

theorem Conjunction.generate_rename : (c : Conjunction) →
    (c.rename r).generate names = c.generate (names ∘ r)
  | ⟨first, rest⟩ => by
      simp only [Conjunction.rename, Conjunction.generate, first.generate_rename,
        generateConjuncts_rename rest]

theorem generateConjuncts_rename : (cs : List Clause) →
    generateConjuncts names (renameClauses r cs) = generateConjuncts (names ∘ r) cs
  | [] => rfl
  | c :: cs => by
      simp only [renameClauses, generateConjuncts, c.generate_rename, generateConjuncts_rename cs]

theorem Clause.generate_rename : (c : Clause) →
    (c.rename r).generate names = c.generate (names ∘ r)
  | ⟨true, relation⟩ => by
      simp only [Clause.rename, Clause.generate, relation.generate_rename]
  | ⟨false, relation⟩ => relation.generate_rename

theorem Relation.generate_rename : (x : Relation) →
    (x.rename r).generate names = x.generate (names ∘ r)
  | ⟨left, none⟩ => left.generate_rename
  | ⟨left, some (op, right)⟩ => by
      simp only [Relation.rename, Relation.generate, left.generate_rename, right.generate_rename]

theorem Expression.generate_rename : (e : Expression) →
    (e.rename r).generate names = e.generate (names ∘ r)
  | ⟨first, rest⟩ => by
      simp only [Expression.rename, Expression.generate, isEmpty_renameAddends,
        first.generate_rename, generateAddends_rename rest]

theorem generateAddends_rename : (rest : List (AddOp × Term)) →
    generateAddends names (renameAddends r rest) = generateAddends (names ∘ r) rest
  | [] => rfl
  | (op, t) :: rest => by
      simp only [renameAddends, generateAddends, t.generate_rename, generateAddends_rename rest]

theorem Term.generate_rename : (t : Term) →
    (t.rename r).generate names = t.generate (names ∘ r)
  | ⟨first, rest⟩ => by
      simp only [Term.rename, Term.generate, isEmpty_renameMultipliers, first.generate_rename,
        generateMultipliers_rename rest]

theorem generateMultipliers_rename : (rest : List (MulOp × Factor)) →
    generateMultipliers names (renameMultipliers r rest) = generateMultipliers (names ∘ r) rest
  | [] => rfl
  | (op, f) :: rest => by
      simp only [renameMultipliers, generateMultipliers, f.generate_rename,
        generateMultipliers_rename rest]

theorem Factor.generate_rename : (f : Factor) →
    (f.rename r).generate names = f.generate (names ∘ r)
  | .variable _ _ | .integer _ | .string _ => rfl
  | .bool true | .bool false => rfl
  | .call call => call.generate_rename
  | .group inner => by simp only [Factor.rename, Factor.generate, inner.generate_rename]

theorem Call.generate_rename : (c : Call) →
    (c.rename r).generate names = c.generate (names ∘ r)
  | ⟨name, [], _⟩ => rfl
  | ⟨name, first :: rest, _⟩ => by
      simp only [Call.rename, renameArguments, Call.generate, first.generate_rename,
        generateArguments_rename rest]

theorem generateArguments_rename : (es : List Expression) →
    generateArguments names (renameArguments r es) = generateArguments (names ∘ r) es
  | [] => rfl
  | e :: es => by
      simp only [renameArguments, generateArguments, e.generate_rename,
        generateArguments_rename es]

end

end Code

/-! ## Visits that offer without a state -/

namespace Visit

variable {σ τ α β ω : Type}

/-- An offer that leaves the state alone is as good as its answer. -/
theorem offer_bind {t : Transformer σ} {h : Hook} {node answer : h.Node}
    (hanswer : ∀ s, t.replace h node s = (answer, s)) (f : h.Node → Visit σ β) :
    Visit.offer t h node >>= f = f answer := by
  funext s
  show Visit.bind _ f s = _
  simp only [Visit.bind, Visit.offer, hanswer]
  cases f answer s with
  | none => rfl
  | some v => simp only [String.empty_append]

section Lists

variable {visit visit' : α → Visit σ α} {g : α → α} (h : ∀ x, visit x = visit' (g x))
include h

/-! A list is visited as the list `gs` makes of it, if that goes item by
item. -/

theorem eachAfter_eq (lead : String) (gs : List α → List α) (hnil : gs [] = [])
    (hcons : ∀ x xs, gs (x :: xs) = g x :: gs xs) (xs : List α) :
    eachAfter lead visit xs = eachAfter lead visit' (gs xs) := by
  induction xs with
  | nil => rw [hnil]; rfl
  | cons x xs ih => simp only [eachAfter, hcons, h, ih]

theorem eachBetween_eq (lead : String) (gs : List α → List α) (hnil : gs [] = [])
    (hcons : ∀ x xs, gs (x :: xs) = g x :: gs xs) (xs : List α) :
    eachBetween lead visit xs = eachBetween lead visit' (gs xs) := by
  cases xs with
  | nil => rw [hnil]; rfl
  | cons x xs => simp only [eachBetween, hcons, h, eachAfter_eq h lead gs hnil hcons xs]

theorem eachOperand_eq (symbol : ω → String) (gs : List (ω × α) → List (ω × α))
    (hnil : gs [] = []) (hcons : ∀ op x xs, gs ((op, x) :: xs) = (op, g x) :: gs xs)
    (xs : List (ω × α)) :
    eachOperand symbol visit xs = eachOperand symbol visit' (gs xs) := by
  induction xs with
  | nil => rw [hnil]; rfl
  | cons x xs ih => simp only [eachOperand, hcons, h, ih]

end Lists

end Visit

/-! ## The renaming transformer -/

namespace Transform

open Visit (offer_bind eachAfter_eq eachBetween_eq eachOperand_eq)

variable {r : String → String}

section Layers

variable {visit visit' : Factor → Visit Unit Factor} (h : ∀ f, visit f = visit' (f.rename r))
include h

theorem termOver_renaming (x : Term) :
    termOver (.renaming r) visit x = termOver .identity visit' (x.rename r) := by
  obtain ⟨first, rest⟩ := x
  have hrest := eachOperand_eq h MulOp.symbol (renameMultipliers r) rfl (fun _ _ _ => rfl) rest
  rw [termOver, termOver, offer_bind fun _ => rfl, offer_bind fun _ => rfl]
  simp only [Term.rename, h, hrest]

theorem expressionOver_renaming (e : Expression) :
    expressionOver (.renaming r) visit e = expressionOver .identity visit' (e.rename r) := by
  obtain ⟨first, rest⟩ := e
  have hterm := termOver_renaming h
  have hrest := eachOperand_eq hterm AddOp.symbol (renameAddends r) rfl (fun _ _ _ => rfl) rest
  rw [expressionOver, expressionOver, offer_bind fun _ => rfl, offer_bind fun _ => rfl]
  simp only [Expression.rename, hterm, hrest]

theorem relationOver_renaming (x : Relation) :
    relationOver (.renaming r) visit x = relationOver .identity visit' (x.rename r) := by
  obtain ⟨left, comparison⟩ := x
  have hexpression := expressionOver_renaming h
  rw [relationOver, relationOver, offer_bind fun _ => rfl, offer_bind fun _ => rfl]
  cases comparison <;> simp only [Relation.rename, comparisonOver, hexpression]

theorem clauseOver_renaming (c : Clause) :
    clauseOver (.renaming r) visit c = clauseOver .identity visit' (c.rename r) := by
  obtain ⟨negated, relation⟩ := c
  rw [clauseOver, clauseOver, offer_bind fun _ => rfl, offer_bind fun _ => rfl]
  simp only [Clause.rename, relationOver_renaming h]
  rfl

theorem conjunctionOver_renaming (c : Conjunction) :
    conjunctionOver (.renaming r) visit c = conjunctionOver .identity visit' (c.rename r) := by
  obtain ⟨first, rest⟩ := c
  have hclause := clauseOver_renaming h
  have hrest := eachAfter_eq hclause " and " (renameClauses r) rfl (fun _ _ => rfl) rest
  rw [conjunctionOver, conjunctionOver, offer_bind fun _ => rfl, offer_bind fun _ => rfl]
  simp only [Conjunction.rename, hclause, hrest]

theorem conditionOver_renaming (c : Condition) :
    conditionOver (.renaming r) visit c = conditionOver .identity visit' (c.rename r) := by
  obtain ⟨first, rest⟩ := c
  have hconjunction := conjunctionOver_renaming h
  have hrest := eachAfter_eq hconjunction " or " (renameConjunctions r) rfl (fun _ _ => rfl) rest
  rw [conditionOver, conditionOver, offer_bind fun _ => rfl, offer_bind fun _ => rfl]
  simp only [Condition.rename, hconjunction, hrest]

/-- The name of a function is offered with its call, and kept. -/
theorem callOver_renaming (c : Call) :
    callOver (.renaming r) visit c = callOver .identity visit' (c.rename r) := by
  obtain ⟨name, args, position⟩ := c
  have hargs := eachBetween_eq (expressionOver_renaming h) ", " (renameArguments r) rfl
    (fun _ _ => rfl) args
  rw [callOver, callOver, offer_bind fun _ => rfl, offer_bind fun _ => rfl]
  simp only [Call.rename, hargs]

/-- A variable has its new name once it has been offered. -/
theorem factorOver_renaming (f : Factor) :
    factorOver (.renaming r) visit f = factorOver .identity visit' (f.rename r) := by
  rw [factorOver, factorOver, offer_bind fun _ => rfl, offer_bind fun _ => rfl]
  cases f with
  | call c => simp only [Factor.renameVariable, Factor.rename, factorParts, callOver_renaming h]
  | group inner =>
      simp only [Factor.renameVariable, Factor.rename, factorParts, conditionOver_renaming h]
  | _ => rfl

end Layers

theorem factor_renaming (fuel : Nat) (f : Factor) :
    factor (.renaming r) fuel f = factor .identity fuel (f.rename r) := by
  induction fuel generalizing f with
  | zero => rfl
  | succ fuel ih => exact factorOver_renaming ih f

theorem condition_renaming (fuel : Nat) (c : Condition) :
    condition (.renaming r) fuel c = condition .identity fuel (c.rename r) :=
  conditionOver_renaming (factor_renaming fuel) c

end Transform

/-! ## Renaming conditions -/

/-- What the renaming transformer makes of a condition is what the identity
makes of the renamed one. -/
theorem Condition.becomes_renaming (r : String → String) (c : Condition)
    (v : Visited Unit Fragment) :
    (Fragment.condition c).Becomes (.renaming r) () v ↔
      (Fragment.condition (c.rename r)).Becomes .identity () v := by
  simp only [Fragment.Becomes, Fragment.transform, Transform.condition_renaming]

/-- Renaming the variables of a condition by transforming it and renaming them
by resolving agree.

The renaming transformer comes to an end on every condition, with the
condition in which each variable has got its new name and nothing else has
changed. Names are renamed all at once, so that renaming twice renames by the
composition. The code of the result, with every name standing for itself, is
the code of the condition itself with every name resolved to its new one. -/
theorem renaming_agrees_with_resolving (r : String → String) (c : Condition) :
    (∀ v, (Fragment.condition c).Becomes (.renaming r) () v ↔
        v = ⟨.condition (c.rename r), (c.rename r).print, ()⟩) ∧
      (∀ s : String → String, (c.rename r).rename s = c.rename (s ∘ r)) ∧
      (c.rename r).generate .verbatim = c.generate r := by
  refine ⟨fun v => ?_, fun s => c.rename_rename r s, c.generate_rename .verbatim r⟩
  rw [c.becomes_renaming, Fragment.becomes_identity]
  rfl

end WorkflowScript
