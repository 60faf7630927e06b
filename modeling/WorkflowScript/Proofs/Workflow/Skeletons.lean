import WorkflowScript.Fragment.Labels

/-!
# Skeleton and labels are all there is to a tree

Two trees with the same skeleton and the same labels are the same
(`Fragment.eq_of_labels`). The skeleton says which parts there are, and so
where in the list of labels those of one part end and those of the next one
begin. Each part is therefore shown to be determined whatever labels follow
its own (`Determined`), and parts one behind the other take the list apart.
-/

namespace WorkflowScript

/-! ## Being determined -/

/-- Whatever labels follow, only `a` has the skeleton and the labels of `a`. -/
def Determined {α : Type} (relabel : α → α) (labels : α → List Label) (a : α) : Prop :=
  ∀ b ls ls', relabel a = relabel b → labels a ++ ls = labels b ++ ls' → a = b ∧ ls = ls'

namespace Determined

variable {α β : Type} {relabel : α → α} {labels : α → List Label} {relabel' : β → β}
  {labels' : β → List Label}

/-- A part, and another one behind it. -/
theorem both {a a₁ : α} {b b₁ : β} {ls ls₁ : List Label} (ha : Determined relabel labels a)
    (hb : Determined relabel' labels' b) (hform : relabel a = relabel a₁)
    (hform' : relabel' b = relabel' b₁)
    (hlabels : labels a ++ labels' b ++ ls = labels a₁ ++ labels' b₁ ++ ls₁) :
    a = a₁ ∧ b = b₁ ∧ ls = ls₁ := by
  rw [List.append_assoc, List.append_assoc] at hlabels
  obtain ⟨rfl, hmore⟩ := ha _ _ _ hform hlabels
  exact ⟨rfl, hb _ _ _ hform' hmore⟩

/-- With nothing that follows. -/
theorem eq {a b : α} (h : Determined relabel labels a) (hform : relabel a = relabel b)
    (hlabels : labels a = labels b) : a = b :=
  (h b [] [] hform (congrArg (· ++ []) hlabels)).1

theorem list (h : ∀ a, Determined relabel labels a) :
    ∀ as, Determined (List.map relabel) (List.flatMap labels) as
  | [], [], _, _, _, hlabels => ⟨rfl, hlabels⟩
  | a :: as, b :: bs, _, _, hform, hlabels => by
      obtain ⟨hhead, htail⟩ := List.cons.inj hform
      obtain ⟨rfl, rfl, rfl⟩ := (h a).both (list h as) hhead htail hlabels
      exact ⟨rfl, rfl⟩

theorem option (h : ∀ a, Determined relabel labels a) :
    ∀ o, Determined (Option.map relabel) (labelsOfOption labels) o
  | none, none, _, _, _, hlabels => ⟨rfl, hlabels⟩
  | some a, some b, _, _, hform, hlabels => by
      obtain ⟨rfl, rfl⟩ := h a b _ _ (Option.some.inj hform) hlabels
      exact ⟨rfl, rfl⟩

end Determined

/-- The position and the name with which most labels begin. -/
theorem Label.heads_inj {p p' : Position} {name name' : String} {ls ls' : List Label}
    (h : place p :: word name :: ls = place p' :: word name' :: ls') :
    p = p' ∧ name = name' ∧ ls = ls' := by
  simpa using h

/-! ## All trees are determined -/

section Determined

variable (f : String → String) (g : Position → Position)

mutual

theorem Condition.determined : (c : Condition) →
    Determined (Condition.relabel f g) Condition.labels c
  | ⟨first, rest⟩, ⟨_, _⟩, _, _, hform, hlabels => by
      simp only [Condition.relabel, Condition.mk.injEq] at hform
      obtain ⟨rfl, rfl, rfl⟩ :=
        first.determined.both (determined_conjunctions rest) hform.1 hform.2 hlabels
      exact ⟨rfl, rfl⟩

theorem determined_conjunctions : (cs : List Conjunction) →
    Determined (relabelConjunctions f g) labelsOfConjunctions cs
  | [], [], _, _, _, hlabels => ⟨rfl, hlabels⟩
  | c :: cs, _ :: _, _, _, hform, hlabels => by
      simp only [relabelConjunctions, List.cons.injEq] at hform
      obtain ⟨rfl, rfl, rfl⟩ :=
        c.determined.both (determined_conjunctions cs) hform.1 hform.2 hlabels
      exact ⟨rfl, rfl⟩

theorem Conjunction.determined : (c : Conjunction) →
    Determined (Conjunction.relabel f g) Conjunction.labels c
  | ⟨first, rest⟩, ⟨_, _⟩, _, _, hform, hlabels => by
      simp only [Conjunction.relabel, Conjunction.mk.injEq] at hform
      obtain ⟨rfl, rfl, rfl⟩ :=
        first.determined.both (determined_clauses rest) hform.1 hform.2 hlabels
      exact ⟨rfl, rfl⟩

theorem determined_clauses : (cs : List Clause) →
    Determined (relabelClauses f g) labelsOfClauses cs
  | [], [], _, _, _, hlabels => ⟨rfl, hlabels⟩
  | c :: cs, _ :: _, _, _, hform, hlabels => by
      simp only [relabelClauses, List.cons.injEq] at hform
      obtain ⟨rfl, rfl, rfl⟩ := c.determined.both (determined_clauses cs) hform.1 hform.2 hlabels
      exact ⟨rfl, rfl⟩

theorem Clause.determined : (c : Clause) → Determined (Clause.relabel f g) Clause.labels c
  | ⟨_, relation⟩, ⟨_, _⟩, _, _, hform, hlabels => by
      simp only [Clause.relabel, Clause.mk.injEq] at hform
      obtain ⟨rfl, hrelation⟩ := hform
      obtain ⟨rfl, rfl⟩ := relation.determined _ _ _ hrelation hlabels
      exact ⟨rfl, rfl⟩

theorem Relation.determined : (r : Relation) →
    Determined (Relation.relabel f g) Relation.labels r
  | ⟨left, none⟩, ⟨_, none⟩, _, _, hform, hlabels => by
      simp only [Relation.relabel, Relation.mk.injEq, and_true] at hform
      obtain ⟨rfl, rfl⟩ := left.determined _ _ _ hform hlabels
      exact ⟨rfl, rfl⟩
  | ⟨_, none⟩, ⟨_, some _⟩, _, _, hform, _ => by
      simp only [Relation.relabel, Relation.mk.injEq, reduceCtorEq, and_false] at hform
  | ⟨_, some _⟩, ⟨_, none⟩, _, _, hform, _ => by
      simp only [Relation.relabel, Relation.mk.injEq, reduceCtorEq, and_false] at hform
  | ⟨left, some (_, right)⟩, ⟨_, some (_, _)⟩, _, _, hform, hlabels => by
      simp only [Relation.relabel, Relation.mk.injEq, Option.some.injEq, Prod.mk.injEq] at hform
      obtain ⟨hleft, rfl, hright⟩ := hform
      obtain ⟨rfl, rfl, rfl⟩ := left.determined.both right.determined hleft hright hlabels
      exact ⟨rfl, rfl⟩

theorem Expression.determined : (e : Expression) →
    Determined (Expression.relabel f g) Expression.labels e
  | ⟨first, rest⟩, ⟨_, _⟩, _, _, hform, hlabels => by
      simp only [Expression.relabel, Expression.mk.injEq] at hform
      obtain ⟨rfl, rfl, rfl⟩ :=
        first.determined.both (determined_addends rest) hform.1 hform.2 hlabels
      exact ⟨rfl, rfl⟩

theorem determined_addends : (rest : List (AddOp × Term)) →
    Determined (relabelAddends f g) labelsOfAddends rest
  | [], [], _, _, _, hlabels => ⟨rfl, hlabels⟩
  | (_, t) :: rest, (_, _) :: _, _, _, hform, hlabels => by
      simp only [relabelAddends, List.cons.injEq, Prod.mk.injEq] at hform
      obtain ⟨⟨rfl, hterm⟩, hrest⟩ := hform
      obtain ⟨rfl, rfl, rfl⟩ := t.determined.both (determined_addends rest) hterm hrest hlabels
      exact ⟨rfl, rfl⟩

theorem Term.determined : (t : Term) → Determined (Term.relabel f g) Term.labels t
  | ⟨first, rest⟩, ⟨_, _⟩, _, _, hform, hlabels => by
      simp only [Term.relabel, Term.mk.injEq] at hform
      obtain ⟨rfl, rfl, rfl⟩ :=
        first.determined.both (determined_multipliers rest) hform.1 hform.2 hlabels
      exact ⟨rfl, rfl⟩

theorem determined_multipliers : (rest : List (MulOp × Factor)) →
    Determined (relabelMultipliers f g) labelsOfMultipliers rest
  | [], [], _, _, _, hlabels => ⟨rfl, hlabels⟩
  | (_, x) :: rest, (_, _) :: _, _, _, hform, hlabels => by
      simp only [relabelMultipliers, List.cons.injEq, Prod.mk.injEq] at hform
      obtain ⟨⟨rfl, hfactor⟩, hrest⟩ := hform
      obtain ⟨rfl, rfl, rfl⟩ :=
        x.determined.both (determined_multipliers rest) hfactor hrest hlabels
      exact ⟨rfl, rfl⟩

theorem Factor.determined : (x : Factor) → Determined (Factor.relabel f g) Factor.labels x
  | .variable _ _, .variable _ _, _, _, _, hlabels => by
      obtain ⟨⟨⟩, ⟨⟩, rfl⟩ := hlabels
      exact ⟨rfl, rfl⟩
  | .integer _, .integer _, _, _, _, hlabels | .string _, .string _, _, _, _, hlabels => by
      obtain ⟨⟨⟩, rfl⟩ := hlabels
      exact ⟨rfl, rfl⟩
  | .bool _, .bool _, _, _, hform, hlabels => ⟨hform, hlabels⟩
  | .call call, .call _, _, _, hform, hlabels => by
      obtain ⟨rfl, rfl⟩ := call.determined _ _ _ (Factor.call.inj hform) hlabels
      exact ⟨rfl, rfl⟩
  | .group inner, .group _, _, _, hform, hlabels => by
      obtain ⟨rfl, rfl⟩ := inner.determined _ _ _ (Factor.group.inj hform) hlabels
      exact ⟨rfl, rfl⟩

theorem Call.determined : (c : Call) → Determined (Call.relabel f g) Call.labels c
  | ⟨_, args, _⟩, ⟨_, _, _⟩, _, _, hform, hlabels => by
      simp only [Call.relabel, Call.mk.injEq] at hform
      simp only [Call.labels, List.cons_append, List.cons.injEq, Label.word.injEq,
        Label.place.injEq] at hlabels
      obtain ⟨rfl, rfl, hmore⟩ := hlabels
      obtain ⟨rfl, rfl⟩ := determined_arguments args _ _ _ hform.2.1 hmore
      exact ⟨rfl, rfl⟩

theorem determined_arguments : (es : List Expression) →
    Determined (relabelArguments f g) labelsOfArguments es
  | [], [], _, _, _, hlabels => ⟨rfl, hlabels⟩
  | e :: es, _ :: _, _, _, hform, hlabels => by
      simp only [relabelArguments, List.cons.injEq] at hform
      obtain ⟨rfl, rfl, rfl⟩ := e.determined.both (determined_arguments es) hform.1 hform.2 hlabels
      exact ⟨rfl, rfl⟩

end

theorem Declaration.determined (d : Declaration) : Determined (relabel f g) labels d := by
  rintro ⟨_, _, _⟩ _ _ hform hlabels
  simp only [relabel, mk.injEq] at hform
  obtain ⟨rfl, rfl, hmore⟩ := Label.heads_inj hlabels
  obtain ⟨rfl, rfl⟩ := d.value.determined f g _ _ _ hform.2.1 hmore
  exact ⟨rfl, rfl⟩

theorem Assignment.determined (a : Assignment) : Determined (relabel f g) labels a := by
  rintro ⟨_, _, _⟩ _ _ hform hlabels
  simp only [relabel, mk.injEq] at hform
  obtain ⟨rfl, rfl, hmore⟩ := Label.heads_inj hlabels
  obtain ⟨rfl, rfl⟩ := a.value.determined f g _ _ _ hform.2.1 hmore
  exact ⟨rfl, rfl⟩

theorem determined_parameters :
    ∀ params, Determined (List.map f) (List.map Label.word) params
  | [], [], _, _, _, hlabels => ⟨rfl, hlabels⟩
  | _ :: params, _ :: _, _, _, hform, hlabels => by
      simp only [List.map_cons, List.cons_append, List.cons.injEq,
        Label.word.injEq] at hform hlabels
      obtain ⟨rfl, hmore⟩ := hlabels
      obtain ⟨rfl, rfl⟩ := determined_parameters params _ _ _ hform.2 hmore
      exact ⟨rfl, rfl⟩

mutual

theorem Statement.determined : (s : Statement) →
    Determined (Statement.relabel f g) Statement.labels s
  | .definition d, .definition _, _, _, hform, hlabels => by
      obtain ⟨rfl, rfl⟩ := d.determined _ _ _ (Statement.definition.inj hform) hlabels
      exact ⟨rfl, rfl⟩
  | .declaration d, .declaration _, _, _, hform, hlabels => by
      obtain ⟨rfl, rfl⟩ := d.determined f g _ _ _ (Statement.declaration.inj hform) hlabels
      exact ⟨rfl, rfl⟩
  | .assignment a, .assignment _, _, _, hform, hlabels => by
      obtain ⟨rfl, rfl⟩ := a.determined f g _ _ _ (Statement.assignment.inj hform) hlabels
      exact ⟨rfl, rfl⟩
  | .conditional c, .conditional _, _, _, hform, hlabels => by
      obtain ⟨rfl, rfl⟩ := c.determined _ _ _ (Statement.conditional.inj hform) hlabels
      exact ⟨rfl, rfl⟩
  | .loop l, .loop _, _, _, hform, hlabels => by
      obtain ⟨rfl, rfl⟩ := l.determined _ _ _ (Statement.loop.inj hform) hlabels
      exact ⟨rfl, rfl⟩
  | .call c, .call _, _, _, hform, hlabels => by
      obtain ⟨rfl, rfl⟩ := c.determined f g _ _ _ (Statement.call.inj hform) hlabels
      exact ⟨rfl, rfl⟩

theorem Definition.determined : (d : Definition) →
    Determined (Definition.relabel f g) Definition.labels d
  | ⟨_, params, body, returns, _⟩, ⟨_, _, _, _, _⟩, _, _, hform, hlabels => by
      simp only [Definition.relabel, Definition.mk.injEq] at hform
      obtain ⟨-, hparams, hbody, hreturns, -⟩ := hform
      simp only [Definition.labels, List.cons_append, List.append_assoc] at hlabels
      obtain ⟨rfl, rfl, hparts⟩ := Label.heads_inj hlabels
      obtain ⟨rfl, hparts'⟩ := determined_parameters f params _ _ _ hparams hparts
      obtain ⟨rfl, hparts''⟩ := determined_statements body _ _ _ hbody hparts'
      obtain ⟨rfl, rfl⟩ :=
        Determined.option (Expression.determined f g) returns _ _ _ hreturns hparts''
      exact ⟨rfl, rfl⟩

theorem Conditional.determined : (c : Conditional) →
    Determined (Conditional.relabel f g) Conditional.labels c
  | ⟨condition, body, _⟩, ⟨_, _, _⟩, _, _, hform, hlabels => by
      simp only [Conditional.relabel, Conditional.mk.injEq] at hform
      obtain ⟨hcondition, hbody, -⟩ := hform
      simp only [Conditional.labels, List.cons_append, List.cons.injEq,
        Label.place.injEq] at hlabels
      obtain ⟨rfl, hmore⟩ := hlabels
      obtain ⟨rfl, rfl, rfl⟩ :=
        (condition.determined f g).both (determined_statements body) hcondition hbody hmore
      exact ⟨rfl, rfl⟩

theorem Loop.determined : (l : Loop) → Determined (Loop.relabel f g) Loop.labels l
  | ⟨init, condition, step, body, _⟩, ⟨_, _, _, _, _⟩, _, _, hform, hlabels => by
      simp only [Loop.relabel, Loop.mk.injEq] at hform
      obtain ⟨hinit, hcondition, hstep, hbody, -⟩ := hform
      simp only [Loop.labels, List.cons_append, List.append_assoc, List.cons.injEq,
        Label.place.injEq] at hlabels
      obtain ⟨rfl, hparts⟩ := hlabels
      obtain ⟨rfl, hparts'⟩ := init.determined f g _ _ _ hinit hparts
      obtain ⟨rfl, hparts''⟩ := condition.determined f g _ _ _ hcondition hparts'
      obtain ⟨rfl, hparts'''⟩ := step.determined f g _ _ _ hstep hparts''
      obtain ⟨rfl, rfl⟩ := determined_statements body _ _ _ hbody hparts'''
      exact ⟨rfl, rfl⟩

theorem determined_statements : (ss : List Statement) →
    Determined (relabelStatements f g) labelsOfStatements ss
  | [], [], _, _, _, hlabels => ⟨rfl, hlabels⟩
  | s :: ss, _ :: _, _, _, hform, hlabels => by
      simp only [relabelStatements, List.cons.injEq] at hform
      obtain ⟨rfl, rfl, rfl⟩ :=
        s.determined.both (determined_statements ss) hform.1 hform.2 hlabels
      exact ⟨rfl, rfl⟩

end

theorem Action.determined : (a : Action) → Determined (relabel f g) labels a
  | ⟨_, statements, _⟩, ⟨_, _, _⟩, _, _, hform, hlabels => by
      simp only [relabel, mk.injEq] at hform
      obtain ⟨rfl, hbody, -⟩ := hform
      simp only [labels, List.cons_append, List.cons.injEq, Label.place.injEq] at hlabels
      obtain ⟨rfl, hmore⟩ := hlabels
      obtain ⟨rfl, rfl⟩ := determined_statements f g statements _ _ _ hbody hmore
      exact ⟨rfl, rfl⟩

theorem Transition.determined : (t : Transition) → Determined (relabel f g) labels t
  | ⟨_, guard, _⟩, ⟨_, _, _⟩, _, _, hform, hlabels => by
      simp only [relabel, mk.injEq] at hform
      obtain ⟨rfl, rfl, hmore⟩ := Label.heads_inj hlabels
      obtain ⟨rfl, rfl⟩ := Determined.option (Condition.determined f g) guard _ _ _ hform.2.1 hmore
      exact ⟨rfl, rfl⟩

theorem Node.determined : (n : Node) → Determined (relabel f g) labels n
  | ⟨_, _, actions, transitions, _⟩, ⟨_, _, _, _, _⟩, _, _, hform, hlabels => by
      simp only [relabel, mk.injEq] at hform
      obtain ⟨rfl, -, hactions, htransitions, -⟩ := hform
      obtain ⟨rfl, rfl, hmore⟩ := Label.heads_inj hlabels
      obtain ⟨rfl, rfl, rfl⟩ := (Determined.list (Action.determined f g) actions).both
        (.list (Transition.determined f g) transitions) hactions htransitions hmore
      exact ⟨rfl, rfl⟩

theorem Workflow.determined : (w : Workflow) → Determined (relabel f g) labels w
  | ⟨_, nodes, _⟩, ⟨_, _, _⟩, _, _, hform, hlabels => by
      simp only [relabel, mk.injEq] at hform
      obtain ⟨rfl, rfl, hmore⟩ := Label.heads_inj hlabels
      obtain ⟨rfl, rfl⟩ := Determined.list (Node.determined f g) nodes _ _ _ hform.2.1 hmore
      exact ⟨rfl, rfl⟩

end Determined

/-- A tree is its skeleton with its labels on it. -/
theorem Fragment.eq_of_labels : {t u : Fragment} →
    t.skeleton = u.skeleton → t.labels = u.labels → t = u
  | workflow w, workflow _, hform, hlabels =>
      congrArg workflow ((w.determined _ _).eq (workflow.inj hform) hlabels)
  | node n, node _, hform, hlabels => congrArg node ((n.determined _ _).eq (node.inj hform) hlabels)
  | action a, action _, hform, hlabels =>
      congrArg action ((a.determined _ _).eq (action.inj hform) hlabels)
  | transition t, transition _, hform, hlabels =>
      congrArg transition ((t.determined _ _).eq (transition.inj hform) hlabels)
  | script statements, script _, hform, hlabels =>
      congrArg script ((determined_statements _ _ statements).eq (script.inj hform) hlabels)
  | statement s, statement _, hform, hlabels =>
      congrArg statement ((s.determined _ _).eq (statement.inj hform) hlabels)
  | definition d, definition _, hform, hlabels =>
      congrArg definition ((d.determined _ _).eq (definition.inj hform) hlabels)
  | call c, call _, hform, hlabels => congrArg call ((c.determined _ _).eq (call.inj hform) hlabels)
  | declaration d, declaration _, hform, hlabels =>
      congrArg declaration ((d.determined _ _).eq (declaration.inj hform) hlabels)
  | assignment a, assignment _, hform, hlabels =>
      congrArg assignment ((a.determined _ _).eq (assignment.inj hform) hlabels)
  | conditional c, conditional _, hform, hlabels =>
      congrArg conditional ((c.determined _ _).eq (conditional.inj hform) hlabels)
  | loop l, loop _, hform, hlabels => congrArg loop ((l.determined _ _).eq (loop.inj hform) hlabels)
  | condition c, condition _, hform, hlabels =>
      congrArg condition ((c.determined _ _).eq (condition.inj hform) hlabels)
  | conjunction c, conjunction _, hform, hlabels =>
      congrArg conjunction ((c.determined _ _).eq (conjunction.inj hform) hlabels)
  | clause c, clause _, hform, hlabels =>
      congrArg clause ((c.determined _ _).eq (clause.inj hform) hlabels)
  | relation r, relation _, hform, hlabels =>
      congrArg relation ((r.determined _ _).eq (relation.inj hform) hlabels)
  | expression e, expression _, hform, hlabels =>
      congrArg expression ((e.determined _ _).eq (expression.inj hform) hlabels)
  | term t, term _, hform, hlabels => congrArg term ((t.determined _ _).eq (term.inj hform) hlabels)
  | factor x, factor _, hform, hlabels =>
      congrArg factor ((x.determined _ _).eq (factor.inj hform) hlabels)

end WorkflowScript
