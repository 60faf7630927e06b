import WorkflowScript.Fragment.Labels

/-!
# Laws of labels

To put other labels on a tree is a map in the usual sense: twice is once with
the composed functions (`relabel_relabel`), and the labels of the new tree are
the new labels (`labels_relabel`). The skeleton stays
(`Fragment.skeleton_relabel`).
-/

namespace WorkflowScript

/-! ## Twice -/

section Twice

variable (f f' : String → String) (g g' : Position → Position)

mutual

theorem Condition.relabel_relabel : (c : Condition) →
    (c.relabel f g).relabel f' g' = c.relabel (f' ∘ f) (g' ∘ g)
  | ⟨first, rest⟩ => by
      simp only [Condition.relabel, first.relabel_relabel, relabelConjunctions_twice rest]

theorem relabelConjunctions_twice : (cs : List Conjunction) →
    relabelConjunctions f' g' (relabelConjunctions f g cs) =
      relabelConjunctions (f' ∘ f) (g' ∘ g) cs
  | [] => rfl
  | c :: cs => by simp only [relabelConjunctions, c.relabel_relabel, relabelConjunctions_twice cs]

theorem Conjunction.relabel_relabel : (c : Conjunction) →
    (c.relabel f g).relabel f' g' = c.relabel (f' ∘ f) (g' ∘ g)
  | ⟨first, rest⟩ => by
      simp only [Conjunction.relabel, first.relabel_relabel, relabelClauses_twice rest]

theorem relabelClauses_twice : (cs : List Clause) →
    relabelClauses f' g' (relabelClauses f g cs) = relabelClauses (f' ∘ f) (g' ∘ g) cs
  | [] => rfl
  | c :: cs => by simp only [relabelClauses, c.relabel_relabel, relabelClauses_twice cs]

theorem Clause.relabel_relabel : (c : Clause) →
    (c.relabel f g).relabel f' g' = c.relabel (f' ∘ f) (g' ∘ g)
  | ⟨negated, relation⟩ => by simp only [Clause.relabel, relation.relabel_relabel]

theorem Relation.relabel_relabel : (r : Relation) →
    (r.relabel f g).relabel f' g' = r.relabel (f' ∘ f) (g' ∘ g)
  | ⟨left, none⟩ => by simp only [Relation.relabel, left.relabel_relabel]
  | ⟨left, some (op, right)⟩ => by
      simp only [Relation.relabel, left.relabel_relabel, right.relabel_relabel]

theorem Expression.relabel_relabel : (e : Expression) →
    (e.relabel f g).relabel f' g' = e.relabel (f' ∘ f) (g' ∘ g)
  | ⟨first, rest⟩ => by
      simp only [Expression.relabel, first.relabel_relabel, relabelAddends_twice rest]

theorem relabelAddends_twice : (rest : List (AddOp × Term)) →
    relabelAddends f' g' (relabelAddends f g rest) = relabelAddends (f' ∘ f) (g' ∘ g) rest
  | [] => rfl
  | (op, t) :: rest => by simp only [relabelAddends, t.relabel_relabel, relabelAddends_twice rest]

theorem Term.relabel_relabel : (t : Term) →
    (t.relabel f g).relabel f' g' = t.relabel (f' ∘ f) (g' ∘ g)
  | ⟨first, rest⟩ => by
      simp only [Term.relabel, first.relabel_relabel, relabelMultipliers_twice rest]

theorem relabelMultipliers_twice : (rest : List (MulOp × Factor)) →
    relabelMultipliers f' g' (relabelMultipliers f g rest) =
      relabelMultipliers (f' ∘ f) (g' ∘ g) rest
  | [] => rfl
  | (op, x) :: rest => by
      simp only [relabelMultipliers, x.relabel_relabel, relabelMultipliers_twice rest]

theorem Factor.relabel_relabel : (x : Factor) →
    (x.relabel f g).relabel f' g' = x.relabel (f' ∘ f) (g' ∘ g)
  | .variable _ _ | .integer _ | .string _ | .bool _ => rfl
  | .call call => by simp only [Factor.relabel, call.relabel_relabel]
  | .group inner => by simp only [Factor.relabel, inner.relabel_relabel]

theorem Call.relabel_relabel : (c : Call) →
    (c.relabel f g).relabel f' g' = c.relabel (f' ∘ f) (g' ∘ g)
  | ⟨name, args, position⟩ => by
      simp only [Call.relabel, relabelArguments_twice args, Function.comp_apply]

theorem relabelArguments_twice : (es : List Expression) →
    relabelArguments f' g' (relabelArguments f g es) = relabelArguments (f' ∘ f) (g' ∘ g) es
  | [] => rfl
  | e :: es => by simp only [relabelArguments, e.relabel_relabel, relabelArguments_twice es]

end

theorem Declaration.relabel_relabel (d : Declaration) :
    (d.relabel f g).relabel f' g' = d.relabel (f' ∘ f) (g' ∘ g) := by
  simp only [relabel, Expression.relabel_relabel, Function.comp_apply]

theorem Assignment.relabel_relabel (a : Assignment) :
    (a.relabel f g).relabel f' g' = a.relabel (f' ∘ f) (g' ∘ g) := by
  simp only [relabel, Expression.relabel_relabel, Function.comp_apply]

mutual

theorem Statement.relabel_relabel : (s : Statement) →
    (s.relabel f g).relabel f' g' = s.relabel (f' ∘ f) (g' ∘ g)
  | .definition d => by simp only [Statement.relabel, d.relabel_relabel]
  | .declaration d => by simp only [Statement.relabel, d.relabel_relabel]
  | .assignment a => by simp only [Statement.relabel, a.relabel_relabel]
  | .conditional c => by simp only [Statement.relabel, c.relabel_relabel]
  | .loop l => by simp only [Statement.relabel, l.relabel_relabel]
  | .call c => by simp only [Statement.relabel, c.relabel_relabel]

theorem Definition.relabel_relabel : (d : Definition) →
    (d.relabel f g).relabel f' g' = d.relabel (f' ∘ f) (g' ∘ g)
  | ⟨name, params, body, returns, position⟩ => by
      have hreturns : Expression.relabel f' g' ∘ Expression.relabel f g =
          Expression.relabel (f' ∘ f) (g' ∘ g) := funext (Expression.relabel_relabel f f' g g')
      simp only [Definition.relabel, List.map_map, Option.map_map, hreturns,
        relabelStatements_twice body, Function.comp_apply]

theorem Conditional.relabel_relabel : (c : Conditional) →
    (c.relabel f g).relabel f' g' = c.relabel (f' ∘ f) (g' ∘ g)
  | ⟨condition, body, position⟩ => by
      simp only [Conditional.relabel, condition.relabel_relabel, relabelStatements_twice body,
        Function.comp_apply]

theorem Loop.relabel_relabel : (l : Loop) →
    (l.relabel f g).relabel f' g' = l.relabel (f' ∘ f) (g' ∘ g)
  | ⟨init, condition, step, body, position⟩ => by
      simp only [Loop.relabel, init.relabel_relabel, condition.relabel_relabel,
        step.relabel_relabel, relabelStatements_twice body, Function.comp_apply]

theorem relabelStatements_twice : (ss : List Statement) →
    relabelStatements f' g' (relabelStatements f g ss) = relabelStatements (f' ∘ f) (g' ∘ g) ss
  | [] => rfl
  | s :: ss => by simp only [relabelStatements, s.relabel_relabel, relabelStatements_twice ss]

end

theorem Action.relabel_relabel (a : Action) :
    (a.relabel f g).relabel f' g' = a.relabel (f' ∘ f) (g' ∘ g) := by
  simp only [relabel, relabelStatements_twice, Function.comp_apply]

theorem Transition.relabel_relabel (t : Transition) :
    (t.relabel f g).relabel f' g' = t.relabel (f' ∘ f) (g' ∘ g) := by
  have hguard : Condition.relabel f' g' ∘ Condition.relabel f g =
      Condition.relabel (f' ∘ f) (g' ∘ g) := funext (Condition.relabel_relabel f f' g g')
  simp only [relabel, Option.map_map, hguard, Function.comp_apply]

theorem Node.relabel_relabel (n : Node) :
    (n.relabel f g).relabel f' g' = n.relabel (f' ∘ f) (g' ∘ g) := by
  have hactions : Action.relabel f' g' ∘ Action.relabel f g =
      Action.relabel (f' ∘ f) (g' ∘ g) := funext (Action.relabel_relabel f f' g g')
  have htransitions : Transition.relabel f' g' ∘ Transition.relabel f g =
      Transition.relabel (f' ∘ f) (g' ∘ g) := funext (Transition.relabel_relabel f f' g g')
  simp only [relabel, List.map_map, hactions, htransitions, Function.comp_apply]

theorem Workflow.relabel_relabel (w : Workflow) :
    (w.relabel f g).relabel f' g' = w.relabel (f' ∘ f) (g' ∘ g) := by
  have hnodes : Node.relabel f' g' ∘ Node.relabel f g = Node.relabel (f' ∘ f) (g' ∘ g) :=
    funext (Node.relabel_relabel f f' g g')
  simp only [relabel, List.map_map, hnodes, Function.comp_apply]

theorem Fragment.relabel_relabel : (t : Fragment) →
    (t.relabel f g).relabel f' g' = t.relabel (f' ∘ f) (g' ∘ g)
  | workflow w => congrArg workflow (w.relabel_relabel f f' g g')
  | node n => congrArg node (n.relabel_relabel f f' g g')
  | action a => congrArg action (a.relabel_relabel f f' g g')
  | transition t => congrArg transition (t.relabel_relabel f f' g g')
  | script statements => congrArg script (relabelStatements_twice f f' g g' statements)
  | statement s => congrArg statement (s.relabel_relabel f f' g g')
  | definition d => congrArg definition (d.relabel_relabel f f' g g')
  | call c => congrArg call (c.relabel_relabel f f' g g')
  | declaration d => congrArg declaration (d.relabel_relabel f f' g g')
  | assignment a => congrArg assignment (a.relabel_relabel f f' g g')
  | conditional c => congrArg conditional (c.relabel_relabel f f' g g')
  | loop l => congrArg loop (l.relabel_relabel f f' g g')
  | condition c => congrArg condition (c.relabel_relabel f f' g g')
  | conjunction c => congrArg conjunction (c.relabel_relabel f f' g g')
  | clause c => congrArg clause (c.relabel_relabel f f' g g')
  | relation r => congrArg relation (r.relabel_relabel f f' g g')
  | expression e => congrArg expression (e.relabel_relabel f f' g g')
  | term t => congrArg term (t.relabel_relabel f f' g g')
  | factor x => congrArg factor (x.relabel_relabel f f' g g')

/-- Other labels stand on the same skeleton. -/
theorem Fragment.skeleton_relabel (t : Fragment) : (t.relabel f g).skeleton = t.skeleton :=
  t.relabel_relabel f (fun _ => "") g fun _ => .start

end Twice

/-! ## The labels of a relabelled tree -/

section Labels

variable (f : String → String) (g : Position → Position)

mutual

theorem Condition.labels_relabel : (c : Condition) →
    (c.relabel f g).labels = c.labels.map (Label.map f g)
  | ⟨first, rest⟩ => by
      simp only [Condition.relabel, Condition.labels, first.labels_relabel,
        labels_relabelConjunctions rest, List.map_append]

theorem labels_relabelConjunctions : (cs : List Conjunction) →
    labelsOfConjunctions (relabelConjunctions f g cs) =
      (labelsOfConjunctions cs).map (Label.map f g)
  | [] => rfl
  | c :: cs => by
      simp only [relabelConjunctions, labelsOfConjunctions, c.labels_relabel,
        labels_relabelConjunctions cs, List.map_append]

theorem Conjunction.labels_relabel : (c : Conjunction) →
    (c.relabel f g).labels = c.labels.map (Label.map f g)
  | ⟨first, rest⟩ => by
      simp only [Conjunction.relabel, Conjunction.labels, first.labels_relabel,
        labels_relabelClauses rest, List.map_append]

theorem labels_relabelClauses : (cs : List Clause) →
    labelsOfClauses (relabelClauses f g cs) = (labelsOfClauses cs).map (Label.map f g)
  | [] => rfl
  | c :: cs => by
      simp only [relabelClauses, labelsOfClauses, c.labels_relabel, labels_relabelClauses cs,
        List.map_append]

theorem Clause.labels_relabel : (c : Clause) →
    (c.relabel f g).labels = c.labels.map (Label.map f g)
  | ⟨_, relation⟩ => relation.labels_relabel

theorem Relation.labels_relabel : (r : Relation) →
    (r.relabel f g).labels = r.labels.map (Label.map f g)
  | ⟨left, none⟩ => left.labels_relabel
  | ⟨left, some (_, right)⟩ => by
      simp only [Relation.relabel, Relation.labels, left.labels_relabel, right.labels_relabel,
        List.map_append]

theorem Expression.labels_relabel : (e : Expression) →
    (e.relabel f g).labels = e.labels.map (Label.map f g)
  | ⟨first, rest⟩ => by
      simp only [Expression.relabel, Expression.labels, first.labels_relabel,
        labels_relabelAddends rest, List.map_append]

theorem labels_relabelAddends : (rest : List (AddOp × Term)) →
    labelsOfAddends (relabelAddends f g rest) = (labelsOfAddends rest).map (Label.map f g)
  | [] => rfl
  | (_, t) :: rest => by
      simp only [relabelAddends, labelsOfAddends, t.labels_relabel, labels_relabelAddends rest,
        List.map_append]

theorem Term.labels_relabel : (t : Term) →
    (t.relabel f g).labels = t.labels.map (Label.map f g)
  | ⟨first, rest⟩ => by
      simp only [Term.relabel, Term.labels, first.labels_relabel, labels_relabelMultipliers rest,
        List.map_append]

theorem labels_relabelMultipliers : (rest : List (MulOp × Factor)) →
    labelsOfMultipliers (relabelMultipliers f g rest) =
      (labelsOfMultipliers rest).map (Label.map f g)
  | [] => rfl
  | (_, x) :: rest => by
      simp only [relabelMultipliers, labelsOfMultipliers, x.labels_relabel,
        labels_relabelMultipliers rest, List.map_append]

theorem Factor.labels_relabel : (x : Factor) →
    (x.relabel f g).labels = x.labels.map (Label.map f g)
  | .variable _ _ | .integer _ | .string _ | .bool _ => rfl
  | .call call => call.labels_relabel
  | .group inner => inner.labels_relabel

theorem Call.labels_relabel : (c : Call) →
    (c.relabel f g).labels = c.labels.map (Label.map f g)
  | ⟨_, args, _⟩ => by
      simp only [Call.relabel, Call.labels, labels_relabelArguments args, List.map_cons, Label.map]

theorem labels_relabelArguments : (es : List Expression) →
    labelsOfArguments (relabelArguments f g es) = (labelsOfArguments es).map (Label.map f g)
  | [] => rfl
  | e :: es => by
      simp only [relabelArguments, labelsOfArguments, e.labels_relabel, labels_relabelArguments es,
        List.map_append]

end

theorem labelsOfOption_map {α : Type} {relabel : α → α} {labels : α → List Label}
    (h : ∀ a, labels (relabel a) = (labels a).map (Label.map f g)) (o : Option α) :
    labelsOfOption labels (o.map relabel) = (labelsOfOption labels o).map (Label.map f g) := by
  cases o with
  | none => rfl
  | some a => exact h a

theorem Declaration.labels_relabel (d : Declaration) :
    (d.relabel f g).labels = d.labels.map (Label.map f g) := by
  simp only [relabel, labels, Expression.labels_relabel, List.map_cons, Label.map]

theorem Assignment.labels_relabel (a : Assignment) :
    (a.relabel f g).labels = a.labels.map (Label.map f g) := by
  simp only [relabel, labels, Expression.labels_relabel, List.map_cons, Label.map]

mutual

theorem Statement.labels_relabel : (s : Statement) →
    (s.relabel f g).labels = s.labels.map (Label.map f g)
  | .definition d => d.labels_relabel
  | .declaration d => d.labels_relabel f g
  | .assignment a => a.labels_relabel f g
  | .conditional c => c.labels_relabel
  | .loop l => l.labels_relabel
  | .call c => c.labels_relabel f g

theorem Definition.labels_relabel : (d : Definition) →
    (d.relabel f g).labels = d.labels.map (Label.map f g)
  | ⟨_, params, body, returns, _⟩ => by
      have hreturns := labelsOfOption_map f g (Expression.labels_relabel f g) returns
      simp only [Definition.relabel, Definition.labels, labels_relabelStatements body, hreturns,
        List.map_cons, List.map_append, List.map_map, Label.map]
      rfl

theorem Conditional.labels_relabel : (c : Conditional) →
    (c.relabel f g).labels = c.labels.map (Label.map f g)
  | ⟨condition, body, _⟩ => by
      simp only [Conditional.relabel, Conditional.labels, condition.labels_relabel,
        labels_relabelStatements body, List.map_cons, List.map_append, Label.map]

theorem Loop.labels_relabel : (l : Loop) →
    (l.relabel f g).labels = l.labels.map (Label.map f g)
  | ⟨init, condition, step, body, _⟩ => by
      simp only [Loop.relabel, Loop.labels, init.labels_relabel, condition.labels_relabel,
        step.labels_relabel, labels_relabelStatements body, List.map_cons, List.map_append,
        Label.map]

theorem labels_relabelStatements : (ss : List Statement) →
    labelsOfStatements (relabelStatements f g ss) = (labelsOfStatements ss).map (Label.map f g)
  | [] => rfl
  | s :: ss => by
      simp only [relabelStatements, labelsOfStatements, s.labels_relabel,
        labels_relabelStatements ss, List.map_append]

end

theorem Action.labels_relabel (a : Action) :
    (a.relabel f g).labels = a.labels.map (Label.map f g) := by
  simp only [relabel, labels, labels_relabelStatements, List.map_cons, Label.map]

theorem Transition.labels_relabel (t : Transition) :
    (t.relabel f g).labels = t.labels.map (Label.map f g) := by
  simp only [relabel, labels, labelsOfOption_map f g (Condition.labels_relabel f g),
    List.map_cons, Label.map]

theorem Node.labels_relabel (n : Node) :
    (n.relabel f g).labels = n.labels.map (Label.map f g) := by
  simp only [relabel, labels, List.flatMap_map, Action.labels_relabel, Transition.labels_relabel,
    List.map_cons, List.map_append, List.map_flatMap, Label.map]

theorem Workflow.labels_relabel (w : Workflow) :
    (w.relabel f g).labels = w.labels.map (Label.map f g) := by
  simp only [relabel, labels, List.flatMap_map, Node.labels_relabel, List.map_cons,
    List.map_flatMap, Label.map]

theorem Fragment.labels_relabel : (t : Fragment) →
    (t.relabel f g).labels = t.labels.map (Label.map f g)
  | workflow w => w.labels_relabel f g
  | node n => n.labels_relabel f g
  | action a => a.labels_relabel f g
  | transition t => t.labels_relabel f g
  | script statements => labels_relabelStatements f g statements
  | statement s => s.labels_relabel f g
  | definition d => d.labels_relabel f g
  | call c => c.labels_relabel f g
  | declaration d => d.labels_relabel f g
  | assignment a => a.labels_relabel f g
  | conditional c => c.labels_relabel f g
  | loop l => l.labels_relabel f g
  | condition c => c.labels_relabel f g
  | conjunction c => c.labels_relabel f g
  | clause c => c.labels_relabel f g
  | relation r => r.labels_relabel f g
  | expression e => e.labels_relabel f g
  | term t => t.labels_relabel f g
  | factor x => x.labels_relabel f g

end Labels

end WorkflowScript
