import WorkflowScript.Proofs.Target.Scoping

/-!
# Free names and the parameters around them

Parameters are written as they are, and free names of the same body as the
resolver has them, so the two can meet. Among the names of a script that are
resolved to different texts this happens in one way only
(`free_meets_parameter_iff`): the free name is given the very name of a
parameter that would itself have been called something else. A symbol table
that leaves the parameters as they are never does that, and the code within
them tells all names apart.
-/

namespace WorkflowScript

/-! ## Properties of names where they stand -/

/-- All names among the pieces have the property, where they stand. -/
def Every (P : Occurrence → Prop) (ps : List Piece) : Prop := ∀ o, .name o ∈ ps → P o

section Every

variable {P : Occurrence → Prop}

@[simp] theorem every_nil : Every P [] := by simp [Every]

@[simp] theorem every_text (content : String) (ps : List Piece) :
    Every P (.text content :: ps) ↔ Every P ps := by
  simp [Every]

@[simp] theorem every_name (o : Occurrence) (ps : List Piece) :
    Every P (.name o :: ps) ↔ P o ∧ Every P ps := by
  simp [Every]

@[simp] theorem every_append (ps qs : List Piece) :
    Every P (ps ++ qs) ↔ Every P ps ∧ Every P qs := by
  simp only [Every, List.mem_append, or_imp, forall_and]

@[simp] theorem every_wrapPiecesIf (bracket : Bool) (ps : List Piece) :
    Every P (wrapPiecesIf bracket ps) ↔ Every P ps := by
  cases bracket <;> simp [wrapPiecesIf]

@[simp] theorem every_piecesOfParameters (bound params : List String) :
    Every P (piecesOfParameters bound params) ↔ ∀ p ∈ params, P ⟨.parameter, p, bound⟩ := by
  cases params with
  | nil => simp [piecesOfParameters]
  | cons first rest =>
      have hrest : Every P (rest.flatMap fun p => [.text ",", .name ⟨.parameter, p, bound⟩]) ↔
          ∀ p ∈ rest, P ⟨.parameter, p, bound⟩ := by
        induction rest with
        | nil => simp
        | cons p rest ih => simp [ih]
      rw [piecesOfParameters, every_name, hrest, List.forall_mem_cons]

end Every

/-! ## Names of expressions

Within an expression the surroundings do not change. -/

/-- All names within the parameters `bound` have the property. -/
def AllWithin (P : Occurrence → Prop) (bound : List String) : Prop :=
  ∀ use name, P ⟨use, name, bound⟩

section Expressions

variable {P : Occurrence → Prop} {bound : List String}

mutual

theorem Condition.every (h : AllWithin P bound) : (c : Condition) → Every P (c.pieces bound)
  | ⟨first, rest⟩ => by
      rw [Condition.pieces, every_append]
      exact ⟨first.every h, alternatives_every h rest⟩

theorem alternatives_every (h : AllWithin P bound) : (cs : List Conjunction) →
    Every P (piecesOfAlternatives bound cs)
  | [] => every_nil
  | c :: cs => by
      rw [piecesOfAlternatives, List.cons_append, every_text, every_append]
      exact ⟨c.every h, alternatives_every h cs⟩

theorem Conjunction.every (h : AllWithin P bound) : (c : Conjunction) → Every P (c.pieces bound)
  | ⟨first, rest⟩ => by
      rw [Conjunction.pieces, every_append]
      exact ⟨first.every h, conjuncts_every h rest⟩

theorem conjuncts_every (h : AllWithin P bound) : (cs : List Clause) →
    Every P (piecesOfConjuncts bound cs)
  | [] => every_nil
  | c :: cs => by
      rw [piecesOfConjuncts, List.cons_append, every_text, every_append]
      exact ⟨c.every h, conjuncts_every h cs⟩

theorem Clause.every (h : AllWithin P bound) : (c : Clause) → Every P (c.pieces bound)
  | ⟨true, relation⟩ => by
      rw [Clause.pieces, List.cons_append, every_text, every_append]
      exact ⟨relation.every h, by simp⟩
  | ⟨false, relation⟩ => relation.every h

theorem Relation.every (h : AllWithin P bound) : (x : Relation) → Every P (x.pieces bound)
  | ⟨left, none⟩ => left.every h
  | ⟨left, some (op, right)⟩ => by
      rw [Relation.pieces, every_append, every_text]
      exact ⟨left.every h, right.every h⟩

theorem Expression.every (h : AllWithin P bound) : (e : Expression) → Every P (e.pieces bound)
  | ⟨first, rest⟩ => by
      rw [Expression.pieces, every_wrapPiecesIf, every_append]
      exact ⟨first.every h, addends_every h rest⟩

theorem addends_every (h : AllWithin P bound) : (rest : List (AddOp × Term)) →
    Every P (piecesOfAddends bound rest)
  | [] => every_nil
  | (op, t) :: rest => by
      rw [piecesOfAddends, List.cons_append, every_text, every_append]
      exact ⟨t.every h, addends_every h rest⟩

theorem Term.every (h : AllWithin P bound) : (t : Term) → Every P (t.pieces bound)
  | ⟨first, rest⟩ => by
      rw [Term.pieces, every_wrapPiecesIf, every_append]
      exact ⟨first.every h, multipliers_every h rest⟩

theorem multipliers_every (h : AllWithin P bound) : (rest : List (MulOp × Factor)) →
    Every P (piecesOfMultipliers bound rest)
  | [] => every_nil
  | (op, f) :: rest => by
      rw [piecesOfMultipliers, List.cons_append, every_text, every_append]
      exact ⟨f.every h, multipliers_every h rest⟩

theorem Factor.every (h : AllWithin P bound) : (f : Factor) → Every P (f.pieces bound)
  | .variable name _ => by
      rw [Factor.pieces, every_name]
      exact ⟨h _ _, every_nil⟩
  | .call call => call.every h
  | .integer _ | .string _ => by simp [Factor.pieces]
  | .bool value => by cases value <;> simp [Factor.pieces]
  | .group inner => by
      rw [Factor.pieces, List.cons_append, every_text, every_append]
      exact ⟨inner.every h, by simp⟩

theorem Call.every (h : AllWithin P bound) : (c : Call) → Every P (c.pieces bound)
  | ⟨name, [], _⟩ => by
      rw [Call.pieces, every_name]
      exact ⟨h _ _, by simp⟩
  | ⟨name, first :: rest, _⟩ => by
      simp only [Call.pieces, List.cons_append, every_name, every_text, every_append]
      exact ⟨h _ _, ⟨first.every h, arguments_every h rest⟩, every_nil⟩

theorem arguments_every (h : AllWithin P bound) : (es : List Expression) →
    Every P (piecesOfArguments bound es)
  | [] => every_nil
  | e :: es => by
      rw [piecesOfArguments, List.cons_append, every_text, every_append]
      exact ⟨e.every h, arguments_every h es⟩

end

theorem Declaration.every (h : AllWithin P bound) (d : Declaration) : Every P (d.pieces bound) := by
  rw [Declaration.pieces, every_name, every_text]
  exact ⟨h _ _, d.value.every h⟩

theorem Assignment.every (h : AllWithin P bound) (a : Assignment) : Every P (a.pieces bound) := by
  rw [Assignment.pieces, every_name, every_text]
  exact ⟨h _ _, a.value.every h⟩

theorem returns_every (h : AllWithin P bound) (returns : Option Expression) :
    Every P (piecesOfReturns bound returns) := by
  cases returns with
  | none => exact every_nil
  | some value =>
      rw [piecesOfReturns, List.cons_append, every_text, every_append]
      exact ⟨value.every h, by simp⟩

end Expressions

/-! ## Parameters are names of the script

A definition adds its parameters to the surroundings, and writes them. -/

/-- The parameters around the name are in `N`. -/
def Occurrence.BoundIn (N : List String) (o : Occurrence) : Prop := ∀ p ∈ o.bound, p ∈ N

section Parameters

open Occurrence (BoundIn)

variable {N : List String}

mutual

theorem Statement.bound_in (bound : List String) (hbound : ∀ p ∈ bound, p ∈ N) :
    (s : Statement) → Every (·.name ∈ N) (s.pieces bound) → Every (BoundIn N) (s.pieces bound)
  | .definition d, h => d.bound_in bound hbound h
  | .declaration d, _ => by
      rw [Statement.pieces, every_append]
      exact ⟨d.every fun _ _ => hbound, by simp⟩
  | .assignment a, _ => by
      rw [Statement.pieces, every_append]
      exact ⟨a.every fun _ _ => hbound, by simp⟩
  | .conditional c, h => c.bound_in bound hbound h
  | .loop l, h => l.bound_in bound hbound h
  | .call c, _ => by
      rw [Statement.pieces, every_append]
      exact ⟨c.every fun _ _ => hbound, by simp⟩

theorem Definition.bound_in (bound : List String) (hbound : ∀ p ∈ bound, p ∈ N) :
    (d : Definition) → Every (·.name ∈ N) (d.pieces bound) → Every (BoundIn N) (d.pieces bound)
  | ⟨name, params, body, returns, _⟩, h => by
      simp only [Definition.pieces, List.cons_append, every_text, every_name, every_append,
        every_piecesOfParameters] at h ⊢
      obtain ⟨-, ⟨⟨hparams, hbody⟩, -⟩, -⟩ := h
      have hinner : ∀ p ∈ params ++ bound, p ∈ N := fun p hp =>
        (List.mem_append.mp hp).elim (hparams p) (hbound p)
      exact ⟨hbound, ⟨⟨fun _ _ => hbound, script_bound_in _ hinner body hbody⟩,
        returns_every (fun _ _ => hinner) returns⟩, every_nil⟩

theorem Conditional.bound_in (bound : List String) (hbound : ∀ p ∈ bound, p ∈ N) :
    (c : Conditional) → Every (·.name ∈ N) (c.pieces bound) → Every (BoundIn N) (c.pieces bound)
  | ⟨condition, body, _⟩, h => by
      simp only [Conditional.pieces, List.cons_append, every_text, every_append] at h ⊢
      exact ⟨⟨condition.every fun _ _ => hbound, script_bound_in bound hbound body h.1.2⟩, every_nil⟩

theorem Loop.bound_in (bound : List String) (hbound : ∀ p ∈ bound, p ∈ N) :
    (l : Loop) → Every (·.name ∈ N) (l.pieces bound) → Every (BoundIn N) (l.pieces bound)
  | ⟨init, condition, step, body, _⟩, h => by
      simp only [Loop.pieces, List.cons_append, every_text, every_append] at h ⊢
      obtain ⟨⟨⟨⟨-, -⟩, -⟩, hbody⟩, -⟩ := h
      exact ⟨⟨⟨⟨init.every fun _ _ => hbound, condition.every fun _ _ => hbound⟩,
        step.every fun _ _ => hbound⟩, script_bound_in bound hbound body hbody⟩, every_nil⟩

theorem script_bound_in (bound : List String) (hbound : ∀ p ∈ bound, p ∈ N) :
    (ss : List Statement) → Every (·.name ∈ N) (piecesOfScript bound ss) →
      Every (BoundIn N) (piecesOfScript bound ss)
  | [], _ => every_nil
  | s :: ss, h => by
      rw [piecesOfScript, every_append] at h ⊢
      exact ⟨s.bound_in bound hbound h.1, script_bound_in bound hbound ss h.2⟩

end

/-- The parameters around a name of the script are names of the script. -/
theorem mem_namesOf_of_bound {ss : List Statement} {o : Occurrence}
    (ho : .name o ∈ piecesOfScript [] ss) : ∀ p ∈ o.bound, p ∈ namesOf ss := by
  have hnames : Every (·.name ∈ namesOf ss) (piecesOfScript [] ss) := fun q hq =>
    List.mem_filterMap.mpr ⟨.name q, hq, rfl⟩
  exact script_bound_in [] (by simp) ss hnames o ho

end Parameters

/-! ## Resolving within parameters -/

/-- Different names among `xs` are resolved to different texts. -/
def Resolver.Separates (names : Resolver) (xs : List String) : Prop :=
  ∀ x ∈ xs, ∀ y ∈ xs, names x = names y → x = y

instance (names : Resolver) (xs : List String) : Decidable (names.Separates xs) :=
  inferInstanceAs (Decidable (∀ x ∈ xs, ∀ y ∈ xs, names x = names y → x = y))

namespace Occurrence

variable {names : Resolver} {o : Occurrence}

theorem target_of_free (h : o.Free) : o.target names = names o.name := if_pos h

/-- A variable goes to the resolver, bound or free, where the resolver leaves
the parameters as they are. -/
theorem target_of_fixed (hvariable : o.use.ofVariable = true)
    (hfixed : ∀ p ∈ o.bound, names p = p) : o.target names = names o.name := by
  by_cases hbound : o.name ∈ o.bound
  · have hfree : ¬ o.Free := fun h => h.2 hbound
    rw [target, if_neg hfree, hfixed o.name hbound]
  · exact target_of_free ⟨hvariable, hbound⟩

/-- A free name is given the name of a parameter only in place of it. -/
theorem target_eq_parameter_iff {xs : List String} (hseparates : names.Separates xs)
    (hname : o.name ∈ xs) (hfree : o.Free) {p : String} (hp : p ∈ o.bound) (hpxs : p ∈ xs) :
    o.target names = p ↔ names o.name = p ∧ names p ≠ p := by
  rw [target_of_free hfree]
  refine ⟨fun hmeets => ⟨hmeets, fun hkept => ?_⟩, fun h => h.1⟩
  have hsame : o.name = p := hseparates _ hname _ hpxs (hmeets.trans hkept.symm)
  exact hfree.2 (hsame ▸ hp)

end Occurrence

/-- When the code of a free name is the name of a parameter around it.

Let a table resolve different names of a script to different texts. A free
name is then written as a parameter around it exactly if the table resolves
it to that parameter and the parameter itself, were it free, to something
else. So it differs from every parameter that the table leaves as it is.
And where the table leaves all of them, variables have the same code if and
only if they have the same name: what is written for a parameter is never
what is written for another name. -/
theorem free_meets_parameter_iff (ss : List Statement) (table : SymbolTable)
    (hseparates : table.resolve.Separates (namesOf ss)) :
    generateScript table.resolve ss = writePieces table.resolve (piecesOfScript [] ss) ∧
      (∀ o, .name o ∈ piecesOfScript [] ss → o.Free → ∀ p ∈ o.bound,
        (o.target table.resolve = p ↔ table.resolve o.name = p ∧ table.resolve p ≠ p) ∧
          (table.resolve p = p → o.target table.resolve ≠ p)) ∧
      ∀ o o', .name o ∈ piecesOfScript [] ss → .name o' ∈ piecesOfScript [] ss →
        o.use.ofVariable = true → o'.use.ofVariable = true →
        (∀ p ∈ o.bound ++ o'.bound, table.resolve p = p) →
        (o.target table.resolve = o'.target table.resolve ↔ o.name = o'.name) := by
  have hmem {o : Occurrence} (ho : .name o ∈ piecesOfScript [] ss) : o.name ∈ namesOf ss :=
    List.mem_filterMap.mpr ⟨.name o, ho, rfl⟩
  refine ⟨generateScript_eq table.resolve ss, fun o ho hfree p hp => ?_,
    fun o o' ho ho' hvariable hvariable' hfixed => ?_⟩
  · have hiff := Occurrence.target_eq_parameter_iff hseparates (hmem ho) hfree hp
      (mem_namesOf_of_bound ho p hp)
    exact ⟨hiff, fun hkept hmeets => (hiff.mp hmeets).2 hkept⟩
  · rw [Occurrence.target_of_fixed hvariable fun p hp => hfixed p (List.mem_append_left _ hp),
      Occurrence.target_of_fixed hvariable' fun p hp => hfixed p (List.mem_append_right _ hp)]
    exact ⟨hseparates _ (hmem ho) _ (hmem ho'), congrArg table.resolve⟩

/-- `def f(a) x = a end` -/
def assignsParameter : List Statement :=
  [.definition ⟨"f", ["a"], [.assignment ⟨"x", (Factor.variable "a" .start).toExpression, .start⟩],
    none, .start⟩]

/-- The `x` of `f` is free. -/
def assignedInside : Occurrence := ⟨.assigned, "x", ["a"]⟩

/-- A table that renames `x` alone keeps it apart from the parameter. -/
theorem assignsParameter_apart :
    let table : SymbolTable := ⟨[("x", "state.x")], none⟩
    table.resolve.Separates (namesOf assignsParameter) ∧
      assignedInside.target table.resolve ≠ "a" ∧
      generateScript table.resolve assignsParameter = "function f(a){state.x=a;}" := by
  intro table
  have hseparates : table.resolve.Separates (namesOf assignsParameter) := by decide
  have happart := (free_meets_parameter_iff assignsParameter table hseparates).2.1 assignedInside
    (by decide) (by decide) "a" (by decide)
  exact ⟨hseparates, happart.2 (by decide), by decide⟩

/-- Names that are resolved to different texts do not keep a free name from
the name of a parameter, which is written as it is. -/
theorem assignsParameter_meets :
    let table : SymbolTable := ⟨[("x", "a"), ("a", "b")], none⟩
    table.resolve.Separates (namesOf assignsParameter) ∧
      .name assignedInside ∈ piecesOfScript [] assignsParameter ∧
      assignedInside.Free ∧ "a" ∈ assignedInside.bound ∧
      assignedInside.target table.resolve = "a" ∧
      generateScript table.resolve assignsParameter = "function f(a){a=a;}" := by
  decide

end WorkflowScript
