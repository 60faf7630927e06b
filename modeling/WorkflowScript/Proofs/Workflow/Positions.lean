import WorkflowScript.Workflow.Nesting
import WorkflowScript.Workflow.Positions

/-!
# Positions do not matter for nesting

Changing the positions of a tree changes nothing of the levels that it
needs, so trees that are the same up to positions need equally many.
-/

namespace WorkflowScript

variable (f : Position → Position)

/-! ## Expressions -/

mutual

@[simp] theorem Condition.nesting_mapPositions :
    (c : Condition) → (c.mapPositions f).nesting = c.nesting
  | ⟨first, rest⟩ => by
      simp only [Condition.mapPositions, Condition.nesting, first.nesting_mapPositions,
        nestingOfConjunctions_mapPositions rest]

@[simp] theorem nestingOfConjunctions_mapPositions :
    (cs : List Conjunction) →
      nestingOfConjunctions (mapConjunctions f cs) = nestingOfConjunctions cs
  | [] => rfl
  | c :: cs => by
      simp only [mapConjunctions, nestingOfConjunctions, c.nesting_mapPositions,
        nestingOfConjunctions_mapPositions cs]

@[simp] theorem Conjunction.nesting_mapPositions :
    (c : Conjunction) → (c.mapPositions f).nesting = c.nesting
  | ⟨first, rest⟩ => by
      simp only [Conjunction.mapPositions, Conjunction.nesting, first.nesting_mapPositions,
        nestingOfClauses_mapPositions rest]

@[simp] theorem nestingOfClauses_mapPositions :
    (cs : List Clause) → nestingOfClauses (mapClauses f cs) = nestingOfClauses cs
  | [] => rfl
  | c :: cs => by
      simp only [mapClauses, nestingOfClauses, c.nesting_mapPositions,
        nestingOfClauses_mapPositions cs]

@[simp] theorem Clause.nesting_mapPositions :
    (c : Clause) → (c.mapPositions f).nesting = c.nesting
  | ⟨_, relation⟩ => by
      simp only [Clause.mapPositions, Clause.nesting, relation.nesting_mapPositions]

@[simp] theorem Relation.nesting_mapPositions :
    (r : Relation) → (r.mapPositions f).nesting = r.nesting
  | ⟨left, none⟩ => by
      simp only [Relation.mapPositions, Relation.nesting, left.nesting_mapPositions]
  | ⟨left, some (_, right)⟩ => by
      simp only [Relation.mapPositions, Relation.nesting, left.nesting_mapPositions,
        right.nesting_mapPositions]

@[simp] theorem Expression.nesting_mapPositions :
    (e : Expression) → (e.mapPositions f).nesting = e.nesting
  | ⟨first, rest⟩ => by
      simp only [Expression.mapPositions, Expression.nesting, first.nesting_mapPositions,
        nestingOfAddends_mapPositions rest]

@[simp] theorem nestingOfAddends_mapPositions :
    (ts : List (AddOp × Term)) → nestingOfAddends (mapAddends f ts) = nestingOfAddends ts
  | [] => rfl
  | (_, t) :: ts => by
      simp only [mapAddends, nestingOfAddends, t.nesting_mapPositions,
        nestingOfAddends_mapPositions ts]

@[simp] theorem Term.nesting_mapPositions :
    (t : Term) → (t.mapPositions f).nesting = t.nesting
  | ⟨first, rest⟩ => by
      simp only [Term.mapPositions, Term.nesting, first.nesting_mapPositions,
        nestingOfMultipliers_mapPositions rest]

@[simp] theorem nestingOfMultipliers_mapPositions :
    (fs : List (MulOp × Factor)) →
      nestingOfMultipliers (mapMultipliers f fs) = nestingOfMultipliers fs
  | [] => rfl
  | (_, x) :: fs => by
      simp only [mapMultipliers, nestingOfMultipliers, x.nesting_mapPositions,
        nestingOfMultipliers_mapPositions fs]

@[simp] theorem Factor.nesting_mapPositions :
    (x : Factor) → (x.mapPositions f).nesting = x.nesting
  | .variable _ _ | .integer _ | .string _ | .bool _ => rfl
  | .call c => by simp only [Factor.mapPositions, Factor.nesting, c.nesting_mapPositions]
  | .group inner => by
      simp only [Factor.mapPositions, Factor.nesting, inner.nesting_mapPositions]

@[simp] theorem Call.nesting_mapPositions :
    (c : Call) → (c.mapPositions f).nesting = c.nesting
  | ⟨_, args, _⟩ => by
      simp only [Call.mapPositions, Call.nesting, nestingOfArguments_mapPositions args]

@[simp] theorem nestingOfArguments_mapPositions :
    (es : List Expression) → nestingOfArguments (mapArguments f es) = nestingOfArguments es
  | [] => rfl
  | e :: es => by
      simp only [mapArguments, nestingOfArguments, e.nesting_mapPositions,
        nestingOfArguments_mapPositions es]

end

/-! ## Statements -/

@[simp] theorem Declaration.nesting_mapPositions (d : Declaration) :
    (d.mapPositions f).nesting = d.nesting :=
  d.value.nesting_mapPositions f

@[simp] theorem Assignment.nesting_mapPositions (a : Assignment) :
    (a.mapPositions f).nesting = a.nesting :=
  a.value.nesting_mapPositions f

mutual

@[simp] theorem Statement.nesting_mapPositions :
    (s : Statement) → (s.mapPositions f).nesting = s.nesting
  | .definition d => by
      simp only [Statement.mapPositions, Statement.nesting, d.nesting_mapPositions]
  | .declaration d => by
      simp only [Statement.mapPositions, Statement.nesting, d.nesting_mapPositions]
  | .assignment a => by
      simp only [Statement.mapPositions, Statement.nesting, a.nesting_mapPositions]
  | .conditional c => by
      simp only [Statement.mapPositions, Statement.nesting, c.nesting_mapPositions]
  | .loop l => by
      simp only [Statement.mapPositions, Statement.nesting, l.nesting_mapPositions]
  | .call c => by
      simp only [Statement.mapPositions, Statement.nesting, c.nesting_mapPositions]

@[simp] theorem Definition.nesting_mapPositions :
    (d : Definition) → (d.mapPositions f).nesting = d.nesting
  | ⟨_, _, body, none, _⟩ => by
      simp only [Definition.mapPositions, Definition.nesting,
        nestingOfStatements_mapPositions body, Option.map_none]
  | ⟨_, _, body, some value, _⟩ => by
      simp only [Definition.mapPositions, Definition.nesting,
        nestingOfStatements_mapPositions body, Option.map_some, value.nesting_mapPositions]

@[simp] theorem Conditional.nesting_mapPositions :
    (c : Conditional) → (c.mapPositions f).nesting = c.nesting
  | ⟨condition, body, _⟩ => by
      simp only [Conditional.mapPositions, Conditional.nesting, condition.nesting_mapPositions,
        nestingOfStatements_mapPositions body]

@[simp] theorem Loop.nesting_mapPositions :
    (l : Loop) → (l.mapPositions f).nesting = l.nesting
  | ⟨init, condition, step, body, _⟩ => by
      simp only [Loop.mapPositions, Loop.nesting, init.nesting_mapPositions,
        condition.nesting_mapPositions, step.nesting_mapPositions,
        nestingOfStatements_mapPositions body]

@[simp] theorem nestingOfStatements_mapPositions :
    (ss : List Statement) → nestingOfStatements (mapStatements f ss) = nestingOfStatements ss
  | [] => rfl
  | s :: ss => by
      simp only [mapStatements, nestingOfStatements, s.nesting_mapPositions,
        nestingOfStatements_mapPositions ss]

end

/-! ## Workflows -/

@[simp] theorem Action.nesting_mapPositions (a : Action) :
    (a.mapPositions f).nesting = a.nesting :=
  nestingOfStatements_mapPositions f a.statements

@[simp] theorem Transition.nesting_mapPositions (t : Transition) :
    (t.mapPositions f).nesting = t.nesting := by
  cases t with
  | mk target guard position =>
      cases guard <;> simp [Transition.mapPositions, Transition.nesting]

theorem largest_map {α : Type} {size : α → Nat} {g : α → α} (h : ∀ a, size (g a) = size a)
    (items : List α) : largest size (items.map g) = largest size items := by
  simp only [largest, List.foldr_map, h]

@[simp] theorem Node.nesting_mapPositions (n : Node) :
    (n.mapPositions f).nesting = n.nesting := by
  simp only [Node.mapPositions, Node.nesting, largest_map (Action.nesting_mapPositions f),
    largest_map (Transition.nesting_mapPositions f)]

@[simp] theorem Workflow.nesting_mapPositions (w : Workflow) :
    (w.mapPositions f).nesting = w.nesting :=
  largest_map (Node.nesting_mapPositions f) w.nodes

end WorkflowScript
