import WorkflowScript.Proofs.Transform.Fuel
import WorkflowScript.Transform.Preorder

/-!
# What a visit answers

A visit prints while it rebuilds: keywords before the transformer is asked,
names and operators from its answer, and the parts of the new tree as they
come. On the way it calls the hooks, and goes on below whatever they answer.

So neither the text nor the calls are about the tree that was offered. The
text is the normal written form of the tree that is put together in the end,
and the calls are those of its nodes, in order and once for each
(`Fragment.transform_follows`). Both are followed through the visit at once,
with one rule for each way of putting visits together and one lemma for each
layer.
-/

namespace WorkflowScript

namespace Visit

variable {σ α β : Type}

/-- The visit only adds to the calls noted, and every answer is a value,
a text and a list of new calls that `R` relates. -/
def Ensures (x : Visit (σ × List Hook) α) (R : α → String → List Hook → Prop) : Prop :=
  ∀ s v, x s = some v → ∃ calls, v.state.2 = s.2 ++ calls ∧ R v.value v.text calls

/-- Text and calls follow the answer: it has been printed as `print` prints
it, and the new calls are those of its nodes. -/
abbrev Follows (x : Visit (σ × List Hook) α) (print : α → String) (hooks : α → List Hook) : Prop :=
  x.Ensures fun a text calls => text = print a ∧ calls = hooks a

namespace Ensures

variable {R : β → String → List Hook → Prop}

theorem pure {b : β} (h : R b "" []) : (Pure.pure b : Visit (σ × List Hook) β).Ensures R := by
  intro s v hv
  obtain rfl := Option.some.inj hv
  exact ⟨[], (List.append_nil _).symm, h⟩

theorem mono {R' : β → String → List Hook → Prop} {x : Visit (σ × List Hook) β} (hx : x.Ensures R)
    (h : ∀ b text calls, R b text calls → R' b text calls) : x.Ensures R' := by
  intro s v hv
  obtain ⟨calls, hstate, hR⟩ := hx s v hv
  exact ⟨calls, hstate, h _ _ _ hR⟩

/-- Behind a part that is settled, the text and the calls go on. -/
theorem bind {x : Visit (σ × List Hook) α} {f : α → Visit (σ × List Hook) β} {print : α → String}
    {hooks : α → List Hook} (hx : x.Follows print hooks)
    (hf : ∀ a, (f a).Ensures fun b text calls => R b (print a ++ text) (hooks a ++ calls)) :
    (x >>= f).Ensures R := by
  intro s v hv
  obtain ⟨a, b, ha, hb, rfl⟩ := bind_eq_some.mp hv
  obtain ⟨_, hstate, htext, rfl⟩ := hx s a ha
  obtain ⟨calls, hcalls, hR⟩ := hf a.value a.state b hb
  refine ⟨hooks a.value ++ calls, by rw [hcalls, hstate, List.append_assoc], ?_⟩
  rwa [← htext] at hR

/-- Printing calls no hook. -/
theorem emit {lead : String} {f : Unit → Visit (σ × List Hook) β}
    (hf : (f ()).Ensures fun b text calls => R b (lead ++ text) calls) :
    (Visit.emit lead >>= f).Ensures R := by
  have hlead : (Visit.emit lead : Visit (σ × List Hook) Unit).Follows (fun _ => lead)
      fun _ => [] := by
    intro s v hv
    obtain rfl := Option.some.inj hv
    exact ⟨[], (List.append_nil _).symm, rfl, rfl⟩
  exact bind hlead fun _ => hf

/-- The transformer may answer with any node. Offering prints nothing. -/
theorem offer {t : Transformer σ} {h : Hook} {node : h.Node}
    {f : h.Node → Visit (σ × List Hook) β}
    (hf : ∀ node, (f node).Ensures fun b text calls => R b text (h :: calls)) :
    (Visit.offer t.traced h node >>= f).Ensures R := by
  have hone : (Visit.offer t.traced h node).Follows (fun _ => "") fun _ => [h] := by
    intro s v hv
    obtain rfl := Option.some.inj hv
    exact ⟨[h], rfl, rfl, rfl⟩
  refine bind hone fun node => (hf node).mono fun b text calls hR => ?_
  rwa [String.empty_append]

theorem map {x : Visit (σ × List Hook) α} {f : α → β} {print : α → String}
    {hooks : α → List Hook} (hx : x.Follows print hooks) (h : ∀ a, R (f a) (print a) (hooks a)) :
    (f <$> x).Ensures R :=
  bind hx fun a => pure (by rw [String.append_empty, List.append_nil]; exact h a)

/-- Printing a text and stopping. -/
theorem leaf {text : String} {b : β} (h : R b text []) :
    (Visit.emit text >>= fun _ => Pure.pure b : Visit (σ × List Hook) β).Ensures R :=
  emit (pure (by rwa [String.append_empty]))

/-! ## Lists -/

section Lists

variable {visit : α → Visit (σ × List Hook) α} {print : α → String} {hooks : α → List Hook}
  (h : ∀ a, (visit a).Follows print hooks)
include h

theorem eachAfter {lead : String} (printRest : List α → String)
    (hooksOfAll : List α → List Hook) (hnil : printRest [] = "" ∧ hooksOfAll [] = [])
    (hcons : ∀ x xs, printRest (x :: xs) = lead ++ print x ++ printRest xs ∧
      hooksOfAll (x :: xs) = hooks x ++ hooksOfAll xs) (xs : List α) :
    (Visit.eachAfter lead visit xs).Follows printRest hooksOfAll := by
  induction xs with
  | nil => exact pure ⟨hnil.1.symm, hnil.2.symm⟩
  | cons x xs ih =>
      refine emit (bind (h x) fun x => bind ih fun xs => pure ⟨?_, ?_⟩)
      · simp only [(hcons x xs).1, String.append_assoc, String.append_empty]
      · rw [List.append_nil, (hcons x xs).2]

theorem eachOperand {ω : Type} {symbol : ω → String} (printRest : List (ω × α) → String)
    (hooksOfAll : List (ω × α) → List Hook) (hnil : printRest [] = "" ∧ hooksOfAll [] = [])
    (hcons : ∀ op x xs,
      printRest ((op, x) :: xs) = " " ++ symbol op ++ " " ++ print x ++ printRest xs ∧
      hooksOfAll ((op, x) :: xs) = hooks x ++ hooksOfAll xs) (xs : List (ω × α)) :
    (Visit.eachOperand symbol visit xs).Follows printRest hooksOfAll := by
  induction xs with
  | nil => exact pure ⟨hnil.1.symm, hnil.2.symm⟩
  | cons x xs ih =>
      obtain ⟨op, x⟩ := x
      refine emit (bind (h x) fun x => bind ih fun xs => pure ⟨?_, ?_⟩)
      · simp only [(hcons op x xs).1, String.append_assoc, String.append_empty]
      · rw [List.append_nil, (hcons op x xs).2]

/-- The items of a list are printed with nothing in front of the first one. -/
theorem eachBetween {lead : String} (printRest printAll : List α → String)
    (hooksOfAll : List α → List Hook) (hnil : printRest [] = "" ∧ hooksOfAll [] = [])
    (hcons : ∀ x xs, printRest (x :: xs) = lead ++ print x ++ printRest xs ∧
      hooksOfAll (x :: xs) = hooks x ++ hooksOfAll xs)
    (hall : printAll [] = "") (hfirst : ∀ x xs, printAll (x :: xs) = print x ++ printRest xs)
    (xs : List α) : (Visit.eachBetween lead visit xs).Follows printAll hooksOfAll := by
  cases xs with
  | nil => exact pure ⟨hall.symm, hnil.2.symm⟩
  | cons x xs =>
      have hrest := eachAfter h printRest hooksOfAll hnil hcons xs
      refine bind (h x) fun x => bind hrest fun xs => pure ⟨?_, ?_⟩
      · rw [String.append_empty, hfirst]
      · rw [List.append_nil, (hcons x xs).2]

end Lists

end Ensures

end Visit

namespace Transform

open Visit (Ensures)

variable {σ : Type} {t : Transformer σ}

/-! ## Expressions -/

section Layers

variable {visit : Factor → Visit (σ × List Hook) Factor}
  (h : ∀ f, (visit f).Follows Factor.print Factor.hooks)
include h

theorem termOver_follows (x : Term) :
    (termOver t.traced visit x).Follows Term.print Term.hooks := by
  refine .offer fun x => .bind (h x.first) fun first =>
    .bind (.eachOperand h printMultipliers hooksOfMultipliers ⟨rfl, rfl⟩
      (fun _ _ _ => ⟨rfl, rfl⟩) x.rest) fun rest => .pure ⟨?_, ?_⟩
  · rw [String.append_empty, Term.print]
  · rw [List.append_nil, Term.hooks]

theorem expressionOver_follows (e : Expression) :
    (expressionOver t.traced visit e).Follows Expression.print Expression.hooks := by
  have hterm := termOver_follows (t := t) h
  refine .offer fun e => .bind (hterm e.first) fun first =>
    .bind (.eachOperand hterm printAddends hooksOfAddends ⟨rfl, rfl⟩
      (fun _ _ _ => ⟨rfl, rfl⟩) e.rest) fun rest => .pure ⟨?_, ?_⟩
  · rw [String.append_empty, Expression.print]
  · rw [List.append_nil, Expression.hooks]

/-- What a relation shows behind its left side. -/
def printComparison : Option (RelOp × Expression) → String
  | none => ""
  | some (op, right) => " " ++ op.symbol ++ " " ++ right.print

theorem comparisonOver_follows (comparison : Option (RelOp × Expression)) :
    (comparisonOver t.traced visit comparison).Follows printComparison
      (hooksOfOption fun comparison => comparison.2.hooks) := by
  cases comparison with
  | none => exact .pure ⟨rfl, rfl⟩
  | some comparison =>
      refine .emit (.bind (expressionOver_follows h comparison.2) fun right => .pure ⟨?_, ?_⟩)
      · rw [String.append_empty, printComparison]
      · rw [List.append_nil, hooksOfOption]

theorem relationOver_follows (x : Relation) :
    (relationOver t.traced visit x).Follows Relation.print Relation.hooks := by
  refine .offer fun x => .bind (expressionOver_follows h x.left) fun left =>
    .bind (comparisonOver_follows h x.comparison) fun comparison => .pure ?_
  cases comparison with
  | none =>
      simp only [printComparison, hooksOfOption, Relation.print, Relation.hooks,
        String.append_empty, List.append_nil, and_self]
  | some comparison =>
      simp only [printComparison, hooksOfOption, Relation.print, Relation.hooks,
        String.append_empty, String.append_assoc, List.append_nil, and_self]

theorem clauseOver_follows (c : Clause) :
    (clauseOver t.traced visit c).Follows Clause.print Clause.hooks := by
  refine .offer fun c => .emit (.bind (relationOver_follows h c.relation) fun relation =>
    .pure ⟨?_, ?_⟩)
  · cases c.negated with
    | true => simp only [if_true, Clause.print, String.append_empty]
    | false => simp [Clause.print]
  · rw [List.append_nil, Clause.hooks]

theorem conjunctionOver_follows (c : Conjunction) :
    (conjunctionOver t.traced visit c).Follows Conjunction.print Conjunction.hooks := by
  have hclause := clauseOver_follows (t := t) h
  refine .offer fun c => .bind (hclause c.first) fun first =>
    .bind (.eachAfter hclause printConjuncts hooksOfClauses ⟨rfl, rfl⟩
      (fun _ _ => ⟨rfl, rfl⟩) c.rest) fun rest => .pure ⟨?_, ?_⟩
  · rw [String.append_empty, Conjunction.print]
  · rw [List.append_nil, Conjunction.hooks]

theorem conditionOver_follows (c : Condition) :
    (conditionOver t.traced visit c).Follows Condition.print Condition.hooks := by
  have hconjunction := conjunctionOver_follows (t := t) h
  refine .offer fun c => .bind (hconjunction c.first) fun first =>
    .bind (.eachAfter hconjunction printAlternatives hooksOfConjunctions ⟨rfl, rfl⟩
      (fun _ _ => ⟨rfl, rfl⟩) c.rest) fun rest => .pure ⟨?_, ?_⟩
  · rw [String.append_empty, Condition.print]
  · rw [List.append_nil, Condition.hooks]

/-- Arguments with a comma between them. -/
def printAllArguments : List Expression → String
  | [] => ""
  | e :: es => e.print ++ printArguments es

theorem callOver_follows (c : Call) :
    (callOver t.traced visit c).Follows Call.print Call.hooks := by
  refine .offer fun c => .emit (.bind (.eachBetween (expressionOver_follows h) printArguments
    printAllArguments hooksOfArguments ⟨rfl, rfl⟩ (fun _ _ => ⟨rfl, rfl⟩) rfl (fun _ _ => rfl)
    c.args) fun args => .emit (.pure ⟨?_, ?_⟩))
  · cases args with
    | nil =>
        simp only [printAllArguments, Call.print, String.append_empty, String.append_assoc]
        rfl
    | cons e es =>
        simp only [printAllArguments, Call.print, String.append_empty, String.append_assoc]
  · rw [List.append_nil, Call.hooks]

theorem factorOver_follows (f : Factor) :
    (factorOver t.traced visit f).Follows Factor.print Factor.hooks := by
  refine .offer fun f => ?_
  cases f with
  | call c => exact .map (callOver_follows h c) fun _ => ⟨rfl, rfl⟩
  | group inner =>
      refine .emit (.bind (conditionOver_follows h inner) fun inner => .emit (.pure ⟨?_, ?_⟩))
      · rw [String.append_empty, Factor.print, String.append_assoc]
      · rw [List.append_nil, Factor.hooks]
  | bool value => cases value <;> exact .leaf ⟨rfl, rfl⟩
  | _ => exact .leaf ⟨rfl, rfl⟩

end Layers

theorem factor_follows (fuel : Nat) (f : Factor) :
    (factor t.traced fuel f).Follows Factor.print Factor.hooks := by
  induction fuel generalizing f with
  | zero => exact fun _ _ hv => nomatch hv
  | succ fuel ih => exact factorOver_follows ih f

/-! ## Statements -/

section Fuel

variable (fuel : Nat)

theorem expression_follows (e : Expression) :
    (expression t.traced fuel e).Follows Expression.print Expression.hooks :=
  expressionOver_follows (factor_follows fuel) e

theorem condition_follows (c : Condition) :
    (condition t.traced fuel c).Follows Condition.print Condition.hooks :=
  conditionOver_follows (factor_follows fuel) c

theorem bareDeclaration_follows (d : Declaration) :
    (bareDeclaration t.traced fuel d).Follows Declaration.printBare Declaration.hooks := by
  refine .offer fun d => .emit (.bind (expression_follows fuel d.value) fun value =>
    .pure ⟨?_, ?_⟩)
  · rw [String.append_empty, Declaration.printBare]
  · rw [List.append_nil, Declaration.hooks]

/-- The keyword stands in front whatever the transformer answers. -/
theorem declaration_follows (d : Declaration) :
    (declaration t.traced fuel d).Follows Declaration.print Declaration.hooks :=
  .emit (.mono (bareDeclaration_follows fuel d) fun _ _ _ h =>
    ⟨congrArg ("var " ++ ·) h.1, h.2⟩)

theorem assignment_follows (a : Assignment) :
    (assignment t.traced fuel a).Follows Assignment.print Assignment.hooks := by
  refine .offer fun a => .emit (.bind (expression_follows fuel a.value) fun value =>
    .pure ⟨?_, ?_⟩)
  · rw [String.append_empty, Assignment.print]
  · rw [List.append_nil, Assignment.hooks]

theorem returnsWith_follows (returns : Option Expression) :
    (returnsWith t.traced fuel returns).Follows printReturns
      (hooksOfOption Expression.hooks) := by
  cases returns with
  | none => exact .pure ⟨rfl, rfl⟩
  | some value =>
      refine .emit (.bind (expression_follows fuel value) fun value => .pure ⟨?_, ?_⟩)
      · rw [String.append_empty, printReturns]
      · rw [List.append_nil, hooksOfOption]

section Bodies

variable {visit : Statement → Visit (σ × List Hook) Statement}
  (h : ∀ s, (visit s).Follows Statement.print Statement.hooks)
include h

theorem body_follows (ss : List Statement) :
    (Visit.eachAfter " " visit ss).Follows printBody hooksOfStatements :=
  .eachAfter h printBody hooksOfStatements ⟨rfl, rfl⟩ (fun _ _ => ⟨rfl, rfl⟩) ss

theorem definitionOver_follows (d : Definition) :
    (definitionOver t.traced visit fuel d).Follows Definition.print Definition.hooks := by
  refine .offer fun d => .emit (.bind (body_follows h d.body) fun body =>
    .bind (returnsWith_follows fuel d.returns) fun returns => .emit (.pure ⟨?_, ?_⟩))
  · simp only [Definition.print, String.append_empty, String.append_assoc]
  · rw [List.append_nil, Definition.hooks]

theorem conditionalOver_follows (c : Conditional) :
    (conditionalOver t.traced visit fuel c).Follows Conditional.print Conditional.hooks := by
  refine .offer fun c => .emit (.bind (condition_follows fuel c.condition) fun test =>
    .emit (.bind (body_follows h c.body) fun body => .emit (.pure ⟨?_, ?_⟩)))
  · simp only [Conditional.print, String.append_empty, String.append_assoc]
  · rw [List.append_nil, Conditional.hooks]

theorem loopOver_follows (l : Loop) :
    (loopOver t.traced visit fuel l).Follows Loop.print Loop.hooks := by
  refine .offer fun l => .emit (.bind (bareDeclaration_follows fuel l.init) fun init =>
    .emit (.bind (relationOver_follows (factor_follows fuel) l.condition) fun test =>
      .emit (.bind (assignment_follows fuel l.step) fun step =>
        .emit (.bind (body_follows h l.body) fun body => .emit (.pure ⟨?_, ?_⟩)))))
  · simp only [Loop.print, String.append_empty, String.append_assoc]
  · rw [List.append_nil, Loop.hooks]

theorem statementOver_follows (s : Statement) :
    (statementOver t.traced visit fuel s).Follows Statement.print Statement.hooks := by
  refine .offer fun s => ?_
  cases s with
  | definition d => exact .map (definitionOver_follows fuel h d) fun _ => ⟨rfl, rfl⟩
  | declaration d => exact .map (declaration_follows fuel d) fun _ => ⟨rfl, rfl⟩
  | assignment a => exact .map (assignment_follows fuel a) fun _ => ⟨rfl, rfl⟩
  | conditional c => exact .map (conditionalOver_follows fuel h c) fun _ => ⟨rfl, rfl⟩
  | loop l => exact .map (loopOver_follows fuel h l) fun _ => ⟨rfl, rfl⟩
  | call c => exact .map (callOver_follows (factor_follows fuel) c) fun _ => ⟨rfl, rfl⟩

end Bodies

end Fuel

theorem statement_follows (fuel : Nat) (s : Statement) :
    (statement t.traced fuel s).Follows Statement.print Statement.hooks := by
  induction fuel generalizing s with
  | zero => exact fun _ _ hv => nomatch hv
  | succ fuel ih => exact statementOver_follows fuel ih s

/-- A separator between texts is one in front of each text but the first. -/
theorem intercalate_cons (lead first : String) (rest : List String) :
    lead.intercalate (first :: rest) = first ++ String.join (rest.map (lead ++ ·)) := by
  induction rest generalizing first with
  | nil => simp
  | cons next rest ih =>
      rw [String.intercalate_cons_cons, ih next]
      simp only [List.map_cons, String.join_cons, String.append_assoc]

/-- The texts of statements, each behind a line feed. -/
def printLinesAfter (ss : List Statement) : String :=
  String.join ((ss.map Statement.print).map ("\n" ++ ·))

theorem printLinesAfter_cons (s : Statement) (ss : List Statement) :
    printLinesAfter (s :: ss) = "\n" ++ s.print ++ printLinesAfter ss := by
  simp only [printLinesAfter, List.map_cons, String.join_cons]

theorem script_follows (fuel : Nat) (ss : List Statement) :
    (script t.traced fuel ss).Follows printScript hooksOfStatements :=
  .eachBetween (statement_follows fuel) printLinesAfter printScript hooksOfStatements ⟨rfl, rfl⟩
    (fun s ss => ⟨printLinesAfter_cons s ss, rfl⟩) rfl
    (fun s ss => intercalate_cons "\n" s.print (ss.map Statement.print)) ss

/-! ## Workflows -/

section Fuel

variable (fuel : Nat)

theorem joinLines_cons {α : Type} (print : α → String) (x : α) (xs : List α) :
    joinLines print (x :: xs) = print x ++ joinLines print xs := by
  simp only [joinLines, List.map_cons, String.join_cons]

/-- Items that are visited one after the other print their lines. -/
theorem lines_follow {α : Type} {visit : α → Visit (σ × List Hook) α} {print : α → String}
    {hooks : α → List Hook} (h : ∀ x, (visit x).Follows print hooks) (xs : List α) :
    (Visit.eachAfter "" visit xs).Follows (joinLines print) (List.flatMap hooks) :=
  .eachAfter h (joinLines print) (List.flatMap hooks) ⟨rfl, rfl⟩
    (fun x xs => ⟨by rw [joinLines_cons, String.empty_append], List.flatMap_cons⟩) xs

theorem statementLine_follows (s : Statement) :
    (statementLine t.traced fuel s).Follows (fun s => s.print ++ "\n") Statement.hooks := by
  refine .bind (statement_follows fuel s) fun s => .emit (.pure ⟨?_, ?_⟩)
  · rw [String.append_empty]
  · rw [List.append_nil]

theorem action_follows (a : Action) :
    (action t.traced fuel a).Follows Action.print Action.hooks := by
  have hlines ss : (Visit.eachAfter "      " (statementLine t.traced fuel) ss).Follows
      (joinLines printStatementLine) hooksOfStatements :=
    .eachAfter (statementLine_follows fuel) _ _ ⟨rfl, rfl⟩
      (fun s ss =>
        ⟨by simp only [joinLines_cons, printStatementLine, String.append_assoc], rfl⟩) ss
  refine .emit (.bind (hlines a.statements) fun ss => .emit (.pure ⟨?_, ?_⟩))
  · simp only [Action.print, String.append_empty, String.append_assoc]
  · rw [List.append_nil, Action.hooks]

theorem guardWith_follows (guard : Option Condition) :
    (guardWith t.traced fuel guard).Follows printGuard (hooksOfOption Condition.hooks) := by
  cases guard with
  | none => exact .pure ⟨rfl, rfl⟩
  | some guard =>
      refine .emit (.bind (condition_follows fuel guard) fun guard => .pure ⟨?_, ?_⟩)
      · rw [String.append_empty, printGuard]
      · rw [List.append_nil, hooksOfOption]

theorem transition_follows (x : Transition) :
    (transition t.traced fuel x).Follows Transition.print Transition.hooks := by
  refine .emit (.bind (guardWith_follows fuel x.guard) fun guard => .emit (.pure ⟨?_, ?_⟩))
  · rw [String.append_empty]
    exact (String.append_assoc ..).symm
  · rw [List.append_nil, Transition.hooks]

theorem node_follows (n : Node) : (node t.traced fuel n).Follows Node.print Node.hooks := by
  refine .emit (.bind (lines_follow (action_follows fuel) n.actions) fun actions =>
    .bind (lines_follow (transition_follows fuel) n.transitions) fun transitions =>
      .emit (.pure ⟨?_, ?_⟩))
  · simp only [Node.print, String.append_empty, String.append_assoc]
  · rw [List.append_nil, Node.hooks]

theorem workflow_follows (w : Workflow) :
    (workflow t.traced fuel w).Follows Workflow.print Workflow.hooks := by
  refine .emit (.bind (lines_follow (node_follows fuel) w.nodes) fun nodes =>
    .emit (.pure ⟨?_, ?_⟩))
  · simp only [Workflow.print, String.append_empty, String.append_assoc]
  · rw [List.append_nil, Workflow.hooks]

end Fuel

end Transform

/-! ## Fragments -/

namespace Fragment

open Transform

variable {σ : Type} {t : Transformer σ}

/-- Whatever the transformer does, what is printed is the normal written form
of what is returned, and the calls are those of its nodes. -/
theorem transform_follows (fuel : Nat) (f : Fragment) :
    (f.transform t.traced fuel).Follows Fragment.print Fragment.hooks := by
  have hfactor : ∀ f, (Transform.factor t.traced fuel f).Follows Factor.print Factor.hooks :=
    factor_follows fuel
  have hstatement : ∀ s,
      (Transform.statement t.traced fuel s).Follows Statement.print Statement.hooks :=
    statement_follows fuel
  cases f with
  | workflow w => exact .map (workflow_follows fuel w) fun _ => ⟨rfl, rfl⟩
  | node n => exact .map (node_follows fuel n) fun _ => ⟨rfl, rfl⟩
  | action a => exact .map (action_follows fuel a) fun _ => ⟨rfl, rfl⟩
  | transition x => exact .map (transition_follows fuel x) fun _ => ⟨rfl, rfl⟩
  | script ss => exact .map (script_follows fuel ss) fun _ => ⟨rfl, rfl⟩
  | statement s => exact .map (hstatement s) fun _ => ⟨rfl, rfl⟩
  | definition d => exact .map (definitionOver_follows fuel hstatement d) fun _ => ⟨rfl, rfl⟩
  | call c => exact .map (callOver_follows hfactor c) fun _ => ⟨rfl, rfl⟩
  | declaration d => exact .map (declaration_follows fuel d) fun _ => ⟨rfl, rfl⟩
  | assignment a => exact .map (assignment_follows fuel a) fun _ => ⟨rfl, rfl⟩
  | conditional c => exact .map (conditionalOver_follows fuel hstatement c) fun _ => ⟨rfl, rfl⟩
  | loop l => exact .map (loopOver_follows fuel hstatement l) fun _ => ⟨rfl, rfl⟩
  | condition c => exact .map (condition_follows fuel c) fun _ => ⟨rfl, rfl⟩
  | conjunction c => exact .map (conjunctionOver_follows hfactor c) fun _ => ⟨rfl, rfl⟩
  | clause c => exact .map (clauseOver_follows hfactor c) fun _ => ⟨rfl, rfl⟩
  | relation x => exact .map (relationOver_follows hfactor x) fun _ => ⟨rfl, rfl⟩
  | expression e => exact .map (expression_follows fuel e) fun _ => ⟨rfl, rfl⟩
  | term x => exact .map (termOver_follows hfactor x) fun _ => ⟨rfl, rfl⟩
  | factor x => exact .map (hfactor x) fun _ => ⟨rfl, rfl⟩

/-- What is noted goes on behind what had been noted before. -/
theorem Becomes.follows {f : Fragment} {s : σ × List Hook}
    {w : Visited (σ × List Hook) Fragment} (hw : f.Becomes t.traced s w) :
    w.text = w.value.print ∧ w.state.2 = s.2 ++ w.value.hooks := by
  obtain ⟨fuel, hw⟩ := hw
  obtain ⟨_, hstate, htext, rfl⟩ := f.transform_follows fuel s w hw
  exact ⟨htext, hstate⟩

end Fragment

end WorkflowScript
