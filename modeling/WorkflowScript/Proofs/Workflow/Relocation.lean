import WorkflowScript.Proofs.Token.Lexing
import WorkflowScript.Proofs.Workflow.Acceptance
import WorkflowScript.Proofs.Workflow.Relabelling
import WorkflowScript.Workflow.Positions

/-!
# Tokens that are moved

To move a tree is to put other positions on it and to leave its words alone
(`relabel_id`). So tokens that are moved have the moved tree: with `f` applied
to every position of a sentence, the sentence derives the tree with `f`
applied to every position (`Derives.relocate`). What `f` is does not matter;
it may shift a text, and it may forget where the text stood.
-/

namespace WorkflowScript

/-! ## To move is to relabel -/

section Moving

variable (f : Position → Position)

theorem Token.relabel_id : Token.relabel id f = Token.mapPosition f := rfl

mutual

theorem Condition.relabel_id : (c : Condition) → c.relabel id f = c.mapPositions f
  | ⟨first, rest⟩ => by
      simp only [Condition.relabel, Condition.mapPositions, first.relabel_id,
        relabelConjunctions_id rest]

theorem relabelConjunctions_id : (cs : List Conjunction) →
    relabelConjunctions id f cs = mapConjunctions f cs
  | [] => rfl
  | c :: cs => by
      simp only [relabelConjunctions, mapConjunctions, c.relabel_id, relabelConjunctions_id cs]

theorem Conjunction.relabel_id : (c : Conjunction) → c.relabel id f = c.mapPositions f
  | ⟨first, rest⟩ => by
      simp only [Conjunction.relabel, Conjunction.mapPositions, first.relabel_id,
        relabelClauses_id rest]

theorem relabelClauses_id : (cs : List Clause) → relabelClauses id f cs = mapClauses f cs
  | [] => rfl
  | c :: cs => by simp only [relabelClauses, mapClauses, c.relabel_id, relabelClauses_id cs]

theorem Clause.relabel_id : (c : Clause) → c.relabel id f = c.mapPositions f
  | ⟨negated, relation⟩ => by
      simp only [Clause.relabel, Clause.mapPositions, relation.relabel_id]

theorem Relation.relabel_id : (r : Relation) → r.relabel id f = r.mapPositions f
  | ⟨left, none⟩ => by simp only [Relation.relabel, Relation.mapPositions, left.relabel_id]
  | ⟨left, some (op, right)⟩ => by
      simp only [Relation.relabel, Relation.mapPositions, left.relabel_id, right.relabel_id]

theorem Expression.relabel_id : (e : Expression) → e.relabel id f = e.mapPositions f
  | ⟨first, rest⟩ => by
      simp only [Expression.relabel, Expression.mapPositions, first.relabel_id,
        relabelAddends_id rest]

theorem relabelAddends_id : (rest : List (AddOp × Term)) →
    relabelAddends id f rest = mapAddends f rest
  | [] => rfl
  | (op, t) :: rest => by
      simp only [relabelAddends, mapAddends, t.relabel_id, relabelAddends_id rest]

theorem Term.relabel_id : (t : Term) → t.relabel id f = t.mapPositions f
  | ⟨first, rest⟩ => by
      simp only [Term.relabel, Term.mapPositions, first.relabel_id, relabelMultipliers_id rest]

theorem relabelMultipliers_id : (rest : List (MulOp × Factor)) →
    relabelMultipliers id f rest = mapMultipliers f rest
  | [] => rfl
  | (op, x) :: rest => by
      simp only [relabelMultipliers, mapMultipliers, x.relabel_id, relabelMultipliers_id rest]

theorem Factor.relabel_id : (x : Factor) → x.relabel id f = x.mapPositions f
  | .variable _ _ | .integer _ | .string _ | .bool _ => rfl
  | .call call => by simp only [Factor.relabel, Factor.mapPositions, call.relabel_id]
  | .group inner => by simp only [Factor.relabel, Factor.mapPositions, inner.relabel_id]

theorem Call.relabel_id : (c : Call) → c.relabel id f = c.mapPositions f
  | ⟨name, args, position⟩ => by
      simp only [Call.relabel, Call.mapPositions, relabelArguments_id args, id_eq]

theorem relabelArguments_id : (es : List Expression) →
    relabelArguments id f es = mapArguments f es
  | [] => rfl
  | e :: es => by
      simp only [relabelArguments, mapArguments, e.relabel_id, relabelArguments_id es]

end

theorem Declaration.relabel_id (d : Declaration) : d.relabel id f = d.mapPositions f := by
  simp only [relabel, mapPositions, Expression.relabel_id, id_eq]

theorem Assignment.relabel_id (a : Assignment) : a.relabel id f = a.mapPositions f := by
  simp only [relabel, mapPositions, Expression.relabel_id, id_eq]

mutual

theorem Statement.relabel_id : (s : Statement) → s.relabel id f = s.mapPositions f
  | .definition d => by simp only [Statement.relabel, Statement.mapPositions, d.relabel_id]
  | .declaration d => by simp only [Statement.relabel, Statement.mapPositions, d.relabel_id]
  | .assignment a => by simp only [Statement.relabel, Statement.mapPositions, a.relabel_id]
  | .conditional c => by simp only [Statement.relabel, Statement.mapPositions, c.relabel_id]
  | .loop l => by simp only [Statement.relabel, Statement.mapPositions, l.relabel_id]
  | .call c => by simp only [Statement.relabel, Statement.mapPositions, c.relabel_id]

theorem Definition.relabel_id : (d : Definition) → d.relabel id f = d.mapPositions f
  | ⟨name, params, body, returns, position⟩ => by
      simp only [Definition.relabel, Definition.mapPositions, relabelStatements_id body,
        funext (Expression.relabel_id f), List.map_id, id_eq]

theorem Conditional.relabel_id : (c : Conditional) → c.relabel id f = c.mapPositions f
  | ⟨condition, body, position⟩ => by
      simp only [Conditional.relabel, Conditional.mapPositions, condition.relabel_id,
        relabelStatements_id body]

theorem Loop.relabel_id : (l : Loop) → l.relabel id f = l.mapPositions f
  | ⟨init, condition, step, body, position⟩ => by
      simp only [Loop.relabel, Loop.mapPositions, init.relabel_id, condition.relabel_id,
        step.relabel_id, relabelStatements_id body]

theorem relabelStatements_id : (ss : List Statement) →
    relabelStatements id f ss = mapStatements f ss
  | [] => rfl
  | s :: ss => by
      simp only [relabelStatements, mapStatements, s.relabel_id, relabelStatements_id ss]

end

theorem Action.relabel_id (a : Action) : a.relabel id f = a.mapPositions f := by
  simp only [relabel, mapPositions, relabelStatements_id]

theorem Transition.relabel_id (t : Transition) : t.relabel id f = t.mapPositions f := by
  simp only [relabel, mapPositions, funext (Condition.relabel_id f), id_eq]

theorem Node.relabel_id (n : Node) : n.relabel id f = n.mapPositions f := by
  simp only [relabel, mapPositions, funext (Action.relabel_id f),
    funext (Transition.relabel_id f), id_eq]

theorem Workflow.relabel_id (w : Workflow) : w.relabel id f = w.mapPositions f := by
  simp only [relabel, mapPositions, funext (Node.relabel_id f), id_eq]

end Moving

/-! ## Whole texts -/

namespace Entry

variable (f : Position → Position)

/-- `f` on every position of a tree. -/
def mapPositions : (e : Entry) → e.Tree → e.Tree
  | workflow => Workflow.mapPositions f
  | condition => Condition.mapPositions f
  | script => mapStatements f

theorem Derives.relocate {e : Entry} {ts : List Token} {t : e.Tree} (h : e.Derives ts t) :
    e.Derives (ts.map (Token.mapPosition f)) (e.mapPositions f t) := by
  cases e with
  | workflow =>
      have hmoved := Grammar.DerivesWorkflow.relabel id f h
      rwa [Token.relabel_id, Workflow.relabel_id] at hmoved
  | condition =>
      have hmoved := Grammar.ExpressionSymbol.Derives.relabel id f h
      rwa [Token.relabel_id, Grammar.ExpressionSymbol.relabel, Condition.relabel_id] at hmoved
  | script =>
      have hmoved := Grammar.StatementSymbol.Derives.relabel id f h
      rwa [Token.relabel_id, Grammar.StatementSymbol.relabel, relabelStatements_id] at hmoved

/-- Tokens that differ in their positions only have trees that do. -/
theorem Derives.mapPositions_eq {e : Entry} {ts us : List Token} {t u : e.Tree}
    (h : e.Derives ts t) (h' : e.Derives us u)
    (htokens : ts.map (Token.mapPosition f) = us.map (Token.mapPosition f)) :
    e.mapPositions f t = e.mapPositions f u := by
  have ht := h.relocate f
  rw [htokens] at ht
  exact ht.unique (h'.relocate f)

end Entry

end WorkflowScript
