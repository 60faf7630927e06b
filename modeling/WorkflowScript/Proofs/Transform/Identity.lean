import WorkflowScript.Transform.Fragment

/-!
# The transformer that changes nothing

With a unit of fuel for each level of a tree and two more, the identity
transformer comes to the end of every fragment, and leaves it as it is
(`Fragment.transform_keeps`). What it prints on the way does not count here:
the text of a visit is known from the tree that is returned.
-/

namespace WorkflowScript

namespace Visit

variable {α β : Type}

/-! ## Visits that finish -/

/-- The visit finishes with the value. -/
def Keeps (x : Visit Unit α) (a : α) : Prop := ∃ text, x () = some ⟨a, text, ()⟩

namespace Keeps

theorem pure (a : α) : (Pure.pure a : Visit Unit α).Keeps a := ⟨"", rfl⟩

theorem bind {x : Visit Unit α} {f : α → Visit Unit β} {a : α} {b : β} (hx : x.Keeps a)
    (hf : (f a).Keeps b) : (x >>= f).Keeps b := by
  obtain ⟨text, hx⟩ := hx
  obtain ⟨text', hf⟩ := hf
  refine ⟨text ++ text', ?_⟩
  show Visit.bind x f () = _
  unfold Visit.bind
  rw [hx]
  simp only [hf]

theorem map {x : Visit Unit α} {a : α} (f : α → β) (hx : x.Keeps a) : (f <$> x).Keeps (f a) :=
  hx.bind (pure (f a))

/-- Printing a text and going on. -/
theorem emit {f : Unit → Visit Unit β} {b : β} (text : String) (hf : (f ()).Keeps b) :
    (Visit.emit text >>= f).Keeps b :=
  bind (x := Visit.emit text) ⟨text, rfl⟩ hf

/-- The identity answers with the node it is offered. -/
theorem offer {h : Hook} {node : h.Node} {f : h.Node → Visit Unit β} {b : β}
    (hf : (f node).Keeps b) : (Visit.offer .identity h node >>= f).Keeps b :=
  bind (x := Visit.offer .identity h node) ⟨"", rfl⟩ hf

/-! ## Lists -/

section Lists

variable {visit : α → Visit Unit α}

theorem eachAfter (lead : String) {xs : List α} (h : ∀ x ∈ xs, (visit x).Keeps x) :
    (Visit.eachAfter lead visit xs).Keeps xs := by
  induction xs with
  | nil => exact pure []
  | cons x xs ih =>
      obtain ⟨hx, hxs⟩ := List.forall_mem_cons.mp h
      exact emit lead (hx.bind ((ih hxs).bind (pure _)))

theorem eachBetween (lead : String) {xs : List α} (h : ∀ x ∈ xs, (visit x).Keeps x) :
    (Visit.eachBetween lead visit xs).Keeps xs := by
  cases xs with
  | nil => exact pure []
  | cons x xs =>
      obtain ⟨hx, hxs⟩ := List.forall_mem_cons.mp h
      exact hx.bind ((eachAfter lead hxs).bind (pure _))

theorem eachOperand {ω : Type} (symbol : ω → String) {xs : List (ω × α)}
    (h : ∀ x ∈ xs, (visit x.2).Keeps x.2) : (Visit.eachOperand symbol visit xs).Keeps xs := by
  induction xs with
  | nil => exact pure []
  | cons x xs ih =>
      obtain ⟨hx, hxs⟩ := List.forall_mem_cons.mp h
      exact emit _ (hx.bind ((ih hxs).bind (pure _)))

end Lists

end Keeps

end Visit

/-- What is the size of a list at most is the size of none of its items. -/
theorem lt_of_mem_of_max_lt {α : Type} {size : α → Nat} {total : List α → Nat}
    (hcons : ∀ x xs, total (x :: xs) = max (size x) (total xs)) {n : Nat} {xs : List α}
    (h : total xs < n) : ∀ x ∈ xs, size x < n := by
  induction xs with
  | nil => simp
  | cons x xs ih =>
      rw [hcons] at h
      obtain ⟨hx, hxs⟩ := Nat.max_lt.mp h
      exact List.forall_mem_cons.mpr ⟨hx, ih hxs⟩

namespace Transform

open Visit (Keeps)

/-! ## Expressions -/

section Layers

variable {n : Nat} {visit : Factor → Visit Unit Factor}
  (hvisit : ∀ f, f.nesting < n → (visit f).Keeps f)
include hvisit

theorem term_keeps (t : Term) (h : t.nesting < n) : (termOver .identity visit t).Keeps t := by
  obtain ⟨first, rest⟩ := t
  obtain ⟨hfirst, hrest⟩ := Nat.max_lt.mp h
  have hrest : ∀ x ∈ rest, x.2.nesting < n := lt_of_mem_of_max_lt (fun _ _ => rfl) hrest
  refine .offer ((hvisit first hfirst).bind (.bind (.eachOperand _ fun x hx => ?_) (.pure _)))
  exact hvisit x.2 (hrest x hx)

theorem expression_keeps (e : Expression) (h : e.nesting < n) :
    (expressionOver .identity visit e).Keeps e := by
  obtain ⟨first, rest⟩ := e
  obtain ⟨hfirst, hrest⟩ := Nat.max_lt.mp h
  have hrest : ∀ x ∈ rest, x.2.nesting < n := lt_of_mem_of_max_lt (fun _ _ => rfl) hrest
  refine .offer ((term_keeps hvisit first hfirst).bind
    (.bind (.eachOperand _ fun x hx => ?_) (.pure _)))
  exact term_keeps hvisit x.2 (hrest x hx)

theorem relation_keeps (r : Relation) (h : r.nesting < n) :
    (relationOver .identity visit r).Keeps r := by
  obtain ⟨left, comparison⟩ := r
  cases comparison with
  | none =>
      have hleft := expression_keeps hvisit left h
      exact .offer (hleft.bind (.bind (.pure none) (.pure _)))
  | some comparison =>
      obtain ⟨op, right⟩ := comparison
      obtain ⟨hleft, hright⟩ := Nat.max_lt.mp h
      have hleft := expression_keeps hvisit left hleft
      have hright := expression_keeps hvisit right hright
      exact .offer (hleft.bind (.bind (.emit _ (hright.bind (.pure _))) (.pure _)))

theorem clause_keeps (c : Clause) (h : c.nesting < n) :
    (clauseOver .identity visit c).Keeps c := by
  obtain ⟨negated, relation⟩ := c
  exact .offer (.emit _ ((relation_keeps hvisit relation h).bind (.pure _)))

theorem conjunction_keeps (c : Conjunction) (h : c.nesting < n) :
    (conjunctionOver .identity visit c).Keeps c := by
  obtain ⟨first, rest⟩ := c
  obtain ⟨hfirst, hrest⟩ := Nat.max_lt.mp h
  have hrest := lt_of_mem_of_max_lt (fun _ _ => rfl) hrest
  refine .offer ((clause_keeps hvisit first hfirst).bind
    (.bind (.eachAfter _ fun x hx => ?_) (.pure _)))
  exact clause_keeps hvisit x (hrest x hx)

theorem condition_keeps (c : Condition) (h : c.nesting < n) :
    (conditionOver .identity visit c).Keeps c := by
  obtain ⟨first, rest⟩ := c
  obtain ⟨hfirst, hrest⟩ := Nat.max_lt.mp h
  have hrest := lt_of_mem_of_max_lt (fun _ _ => rfl) hrest
  refine .offer ((conjunction_keeps hvisit first hfirst).bind
    (.bind (.eachAfter _ fun x hx => ?_) (.pure _)))
  exact conjunction_keeps hvisit x (hrest x hx)

/-- The arguments of a call stand a level further in than the call. -/
theorem call_keeps (c : Call) (h : c.nesting ≤ n) : (callOver .identity visit c).Keeps c := by
  obtain ⟨name, args, position⟩ := c
  have hargs := lt_of_mem_of_max_lt (fun _ _ => rfl) (Nat.lt_of_succ_le h)
  refine .offer (.emit _ (.bind (.eachBetween _ fun x hx => ?_) (.emit _ (.pure _))))
  exact expression_keeps hvisit x (hargs x hx)

theorem factorParts_keeps : (f : Factor) → f.nesting ≤ n →
    (factorParts .identity visit f).Keeps f
  | .variable _ _, _ => .emit _ (.pure _)
  | .call c, h => (call_keeps hvisit c h).map _
  | .integer _, _ => .emit _ (.pure _)
  | .string _, _ => .emit _ (.pure _)
  | .bool _, _ => .emit _ (.pure _)
  | .group inner, h => .emit _ ((condition_keeps hvisit inner h).bind (.emit _ (.pure _)))

end Layers

/-- A factor takes a unit of fuel for each of its levels and one for itself. -/
theorem factor_keeps {fuel : Nat} {f : Factor} (h : f.nesting < fuel) :
    (factor .identity fuel f).Keeps f := by
  induction fuel generalizing f with
  | zero => cases h
  | succ fuel ih =>
      exact .offer (factorParts_keeps (fun _ => ih) f (Nat.le_of_lt_succ h))

/-! ## Statements -/

section Bodies

variable {fuel : Nat}

theorem expression_keeps_of_lt {e : Expression} (h : e.nesting < fuel) :
    (expression .identity fuel e).Keeps e :=
  expression_keeps (fun _ => factor_keeps) e h

theorem condition_keeps_of_lt {c : Condition} (h : c.nesting < fuel) :
    (condition .identity fuel c).Keeps c :=
  condition_keeps (fun _ => factor_keeps) c h

theorem bareDeclaration_keeps {d : Declaration} (h : d.nesting < fuel) :
    (bareDeclaration .identity fuel d).Keeps d :=
  .offer (.emit _ ((expression_keeps_of_lt h).bind (.pure _)))

theorem declaration_keeps {d : Declaration} (h : d.nesting < fuel) :
    (declaration .identity fuel d).Keeps d :=
  .emit _ (bareDeclaration_keeps h)

theorem assignment_keeps {a : Assignment} (h : a.nesting < fuel) :
    (assignment .identity fuel a).Keeps a :=
  .offer (.emit _ ((expression_keeps_of_lt h).bind (.pure _)))

theorem returnsWith_keeps {returns : Option Expression}
    (h : (returns.map Expression.nesting).getD 0 < fuel) :
    (returnsWith .identity fuel returns).Keeps returns := by
  cases returns with
  | none => exact .pure none
  | some value => exact .emit _ ((expression_keeps_of_lt h).bind (.pure _))

variable {visit : Statement → Visit Unit Statement}
  (hvisit : ∀ s, s.nesting + 1 < fuel → (visit s).Keeps s)
include hvisit

theorem body_keeps {ss : List Statement} (h : nestingOfStatements ss + 1 < fuel) :
    (Visit.eachAfter " " visit ss).Keeps ss := by
  have hlt := lt_of_mem_of_max_lt (n := fuel - 1) (fun _ _ => rfl) (Nat.lt_sub_of_add_lt h)
  exact .eachAfter _ fun s hs => hvisit s (Nat.add_lt_of_lt_sub (hlt s hs))

theorem definitionOver_keeps (d : Definition) (h : d.nesting + 1 < fuel) :
    (definitionOver .identity visit fuel d).Keeps d := by
  obtain ⟨name, params, body, returns, position⟩ := d
  obtain ⟨hbody, hreturns⟩ := Nat.max_lt.mp (Nat.lt_sub_of_add_lt h)
  have hbody := body_keeps hvisit (Nat.add_lt_of_lt_sub hbody)
  have hreturns := returnsWith_keeps (Nat.lt_of_lt_of_le hreturns (Nat.sub_le fuel 1))
  exact .offer (.emit _ (hbody.bind (hreturns.bind (.emit _ (.pure _)))))

theorem conditionalOver_keeps (c : Conditional) (h : c.nesting + 1 < fuel) :
    (conditionalOver .identity visit fuel c).Keeps c := by
  obtain ⟨test, body, position⟩ := c
  obtain ⟨htest, hbody⟩ := Nat.max_lt.mp (Nat.lt_sub_of_add_lt h)
  have htest := condition_keeps_of_lt (Nat.lt_of_lt_of_le htest (Nat.sub_le fuel 1))
  have hbody := body_keeps hvisit (Nat.add_lt_of_lt_sub hbody)
  exact .offer (.emit _ (htest.bind (.emit _ (hbody.bind (.emit _ (.pure _))))))

theorem loopOver_keeps (l : Loop) (h : l.nesting + 1 < fuel) :
    (loopOver .identity visit fuel l).Keeps l := by
  obtain ⟨init, test, step, body, position⟩ := l
  have hn : max (max init.nesting test.nesting) (max step.nesting (nestingOfStatements body)) + 1 <
    fuel := h
  have hinit : init.nesting < fuel := by omega
  have htest : test.nesting < fuel := by omega
  have hstep : step.nesting < fuel := by omega
  have hbody : nestingOfStatements body + 1 < fuel := by omega
  have hinit := bareDeclaration_keeps hinit
  have htest := relation_keeps (fun _ => factor_keeps) test htest
  have hstep := assignment_keeps hstep
  have hbody := body_keeps hvisit hbody
  exact .offer (.emit _ (hinit.bind (.emit _ (htest.bind (.emit _ (hstep.bind
    (.emit _ (hbody.bind (.emit _ (.pure _))))))))))

theorem statementParts_keeps : (s : Statement) → s.nesting < fuel →
    (statementParts .identity visit fuel s).Keeps s
  | .definition d, h => (definitionOver_keeps hvisit d h).map _
  | .declaration _, h => (declaration_keeps h).map _
  | .assignment _, h => (assignment_keeps h).map _
  | .conditional c, h => (conditionalOver_keeps hvisit c h).map _
  | .loop l, h => (loopOver_keeps hvisit l h).map _
  | .call c, h => (call_keeps (fun _ => factor_keeps) c (Nat.le_of_lt h)).map _

end Bodies

/-- A statement takes one unit of fuel more than the factors in it. -/
theorem statement_keeps {fuel : Nat} {s : Statement} (h : s.nesting + 1 < fuel) :
    (statement .identity fuel s).Keeps s := by
  induction fuel generalizing s with
  | zero => cases h
  | succ fuel ih =>
      exact .offer (statementParts_keeps (fun _ => ih) s (Nat.lt_of_succ_lt_succ h))

theorem statements_keep {fuel : Nat} {ss : List Statement}
    (h : nestingOfStatements ss + 1 < fuel) :
    ∀ s ∈ ss, (statement .identity fuel s).Keeps s := by
  have hlt := lt_of_mem_of_max_lt (n := fuel - 1) (fun _ _ => rfl) (Nat.lt_sub_of_add_lt h)
  exact fun s hs => statement_keeps (Nat.add_lt_of_lt_sub (hlt s hs))

theorem script_keeps {fuel : Nat} {ss : List Statement} (h : nestingOfStatements ss + 1 < fuel) :
    (script .identity fuel ss).Keeps ss :=
  .eachBetween _ (statements_keep h)

/-! ## Workflows -/

theorem action_keeps {fuel : Nat} {a : Action} (h : a.nesting + 1 < fuel) :
    (action .identity fuel a).Keeps a := by
  have hline s (hs : s ∈ a.statements) : (statementLine .identity fuel s).Keeps s :=
    (statements_keep h s hs).bind (.emit _ (.pure _))
  exact .emit _ (.bind (.eachAfter _ hline) (.emit _ (.pure _)))

theorem guardWith_keeps {fuel : Nat} {guard : Option Condition}
    (h : (guard.map Condition.nesting).getD 0 < fuel) :
    (guardWith .identity fuel guard).Keeps guard := by
  cases guard with
  | none => exact .pure none
  | some c => exact .emit _ ((condition_keeps_of_lt h).bind (.pure _))

theorem transition_keeps {fuel : Nat} {t : Transition} (h : t.nesting < fuel) :
    (transition .identity fuel t).Keeps t := by
  obtain ⟨target, guard, position⟩ := t
  have hguard : (guardWith .identity fuel guard).Keeps guard := guardWith_keeps h
  exact .emit _ (hguard.bind (.emit _ (.pure _)))

theorem node_keeps {fuel : Nat} {n : Node} (h : n.nesting + 1 < fuel) :
    (node .identity fuel n).Keeps n := by
  obtain ⟨hactions, htransitions⟩ := Nat.max_lt.mp (Nat.lt_sub_of_add_lt h)
  have hactions := lt_of_mem_of_max_lt (fun _ _ => rfl) hactions
  have htransitions := lt_of_mem_of_max_lt (fun _ _ => rfl) htransitions
  have hactions a (ha : a ∈ n.actions) := action_keeps (Nat.add_lt_of_lt_sub (hactions a ha))
  have htransitions t (ht : t ∈ n.transitions) :=
    transition_keeps (Nat.lt_of_lt_of_le (htransitions t ht) (Nat.sub_le fuel 1))
  exact .emit _ (.bind (.eachAfter _ hactions) (.bind (.eachAfter _ htransitions)
    (.emit _ (.pure _))))

theorem workflow_keeps {fuel : Nat} {w : Workflow} (h : w.nesting + 1 < fuel) :
    (workflow .identity fuel w).Keeps w := by
  have hnodes := lt_of_mem_of_max_lt (fun _ _ => rfl) (Nat.lt_sub_of_add_lt h)
  have hnodes n (hn : n ∈ w.nodes) := node_keeps (Nat.add_lt_of_lt_sub (hnodes n hn))
  exact .emit _ (.bind (.eachAfter _ hnodes) (.emit _ (.pure _)))

end Transform

/-! ## Fragments -/

namespace Fragment

/-- The identity leaves every fragment as it is, and more fuel than enough
makes no difference. -/
theorem transform_keeps (f : Fragment) {fuel : Nat} (h : f.fuel ≤ fuel) :
    (f.transform .identity fuel).Keeps f := by
  have hlt : f.nesting < fuel := Nat.lt_of_lt_of_le (Nat.lt_succ_of_lt (Nat.lt_succ_self _)) h
  have hvisit : ∀ f, f.nesting < fuel → (Transform.factor .identity fuel f).Keeps f :=
    fun _ => Transform.factor_keeps
  have hvisitStatement : ∀ s, s.nesting + 1 < fuel →
      (Transform.statement .identity fuel s).Keeps s :=
    fun _ => Transform.statement_keeps
  cases f with
  | workflow w => exact .map workflow (Transform.workflow_keeps h)
  | node n => exact .map node (Transform.node_keeps h)
  | action a => exact .map action (Transform.action_keeps h)
  | transition t => exact .map transition (Transform.transition_keeps hlt)
  | script ss => exact .map script (Transform.script_keeps h)
  | statement s => exact .map statement (Transform.statement_keeps h)
  | definition d =>
      exact .map definition (Transform.definitionOver_keeps hvisitStatement d h)
  | call c => exact .map call (Transform.call_keeps hvisit c (Nat.le_of_lt hlt))
  | declaration d => exact .map declaration (Transform.declaration_keeps hlt)
  | assignment a => exact .map assignment (Transform.assignment_keeps hlt)
  | conditional c =>
      exact .map conditional (Transform.conditionalOver_keeps hvisitStatement c h)
  | loop l => exact .map loop (Transform.loopOver_keeps hvisitStatement l h)
  | condition c => exact .map condition (Transform.condition_keeps hvisit c hlt)
  | conjunction c => exact .map conjunction (Transform.conjunction_keeps hvisit c hlt)
  | clause c => exact .map clause (Transform.clause_keeps hvisit c hlt)
  | relation r => exact .map relation (Transform.relation_keeps hvisit r hlt)
  | expression e => exact .map expression (Transform.expression_keeps hvisit e hlt)
  | term t => exact .map term (Transform.term_keeps hvisit t hlt)
  | factor f => exact .map factor (hvisit f hlt)

end Fragment

end WorkflowScript
