import WorkflowScript.Fragment.Operations

/-!
# Positions do not matter for texts

Neither the normal written form of a tree nor its target code shows where
the tree stood in a source: with other positions both are the same, letter
by letter and for every resolver. So trees that agree up to positions are
printed alike (`Fragment.print_eq`) and become the same code
(`Fragment.generate_eq`).
-/

namespace WorkflowScript

variable (f : Position → Position)

/-! ## Printed expressions -/

mutual

@[simp] theorem Condition.print_mapPositions :
    (c : Condition) → (c.mapPositions f).print = c.print
  | ⟨first, rest⟩ => by
      simp only [Condition.mapPositions, Condition.print, first.print_mapPositions,
        printAlternatives_mapPositions rest]

@[simp] theorem printAlternatives_mapPositions :
    (cs : List Conjunction) → printAlternatives (mapConjunctions f cs) = printAlternatives cs
  | [] => rfl
  | c :: cs => by
      simp only [mapConjunctions, printAlternatives, c.print_mapPositions,
        printAlternatives_mapPositions cs]

@[simp] theorem Conjunction.print_mapPositions :
    (c : Conjunction) → (c.mapPositions f).print = c.print
  | ⟨first, rest⟩ => by
      simp only [Conjunction.mapPositions, Conjunction.print, first.print_mapPositions,
        printConjuncts_mapPositions rest]

@[simp] theorem printConjuncts_mapPositions :
    (cs : List Clause) → printConjuncts (mapClauses f cs) = printConjuncts cs
  | [] => rfl
  | c :: cs => by
      simp only [mapClauses, printConjuncts, c.print_mapPositions,
        printConjuncts_mapPositions cs]

@[simp] theorem Clause.print_mapPositions : (c : Clause) → (c.mapPositions f).print = c.print
  | ⟨true, relation⟩ => by
      simp only [Clause.mapPositions, Clause.print, relation.print_mapPositions]
  | ⟨false, relation⟩ => by
      simp only [Clause.mapPositions, Clause.print, relation.print_mapPositions]

@[simp] theorem Relation.print_mapPositions :
    (r : Relation) → (r.mapPositions f).print = r.print
  | ⟨left, none⟩ => by
      simp only [Relation.mapPositions, Relation.print, left.print_mapPositions]
  | ⟨left, some (_, right)⟩ => by
      simp only [Relation.mapPositions, Relation.print, left.print_mapPositions,
        right.print_mapPositions]

@[simp] theorem Expression.print_mapPositions :
    (e : Expression) → (e.mapPositions f).print = e.print
  | ⟨first, rest⟩ => by
      simp only [Expression.mapPositions, Expression.print, first.print_mapPositions,
        printAddends_mapPositions rest]

@[simp] theorem printAddends_mapPositions :
    (ts : List (AddOp × Term)) → printAddends (mapAddends f ts) = printAddends ts
  | [] => rfl
  | (_, t) :: ts => by
      simp only [mapAddends, printAddends, t.print_mapPositions, printAddends_mapPositions ts]

@[simp] theorem Term.print_mapPositions : (t : Term) → (t.mapPositions f).print = t.print
  | ⟨first, rest⟩ => by
      simp only [Term.mapPositions, Term.print, first.print_mapPositions,
        printMultipliers_mapPositions rest]

@[simp] theorem printMultipliers_mapPositions :
    (fs : List (MulOp × Factor)) → printMultipliers (mapMultipliers f fs) = printMultipliers fs
  | [] => rfl
  | (_, x) :: fs => by
      simp only [mapMultipliers, printMultipliers, x.print_mapPositions,
        printMultipliers_mapPositions fs]

@[simp] theorem Factor.print_mapPositions : (x : Factor) → (x.mapPositions f).print = x.print
  | .variable _ _ | .integer _ | .string _ | .bool true | .bool false => rfl
  | .call c => by simp only [Factor.mapPositions, Factor.print, c.print_mapPositions]
  | .group inner => by
      simp only [Factor.mapPositions, Factor.print, inner.print_mapPositions]

@[simp] theorem Call.print_mapPositions : (c : Call) → (c.mapPositions f).print = c.print
  | ⟨_, [], _⟩ => rfl
  | ⟨_, e :: es, _⟩ => by
      simp only [Call.mapPositions, mapArguments, Call.print, e.print_mapPositions,
        printArguments_mapPositions es]

@[simp] theorem printArguments_mapPositions :
    (es : List Expression) → printArguments (mapArguments f es) = printArguments es
  | [] => rfl
  | e :: es => by
      simp only [mapArguments, printArguments, e.print_mapPositions,
        printArguments_mapPositions es]

end

/-! ## Printed statements -/

@[simp] theorem Declaration.printBare_mapPositions (d : Declaration) :
    (d.mapPositions f).printBare = d.printBare := by
  simp only [mapPositions, printBare, Expression.print_mapPositions]

@[simp] theorem Declaration.print_mapPositions (d : Declaration) :
    (d.mapPositions f).print = d.print := by
  rw [print, print, printBare_mapPositions]

@[simp] theorem Assignment.print_mapPositions (a : Assignment) :
    (a.mapPositions f).print = a.print := by
  simp only [mapPositions, print, Expression.print_mapPositions]

@[simp] theorem printReturns_mapPositions (returns : Option Expression) :
    printReturns (returns.map (Expression.mapPositions f)) = printReturns returns := by
  cases returns with
  | none => rfl
  | some e => simp only [Option.map_some, printReturns, Expression.print_mapPositions]

mutual

@[simp] theorem Statement.print_mapPositions :
    (s : Statement) → (s.mapPositions f).print = s.print
  | .definition d => by
      simp only [Statement.mapPositions, Statement.print, d.print_mapPositions]
  | .declaration d => by
      simp only [Statement.mapPositions, Statement.print, d.print_mapPositions]
  | .assignment a => by
      simp only [Statement.mapPositions, Statement.print, a.print_mapPositions]
  | .conditional c => by
      simp only [Statement.mapPositions, Statement.print, c.print_mapPositions]
  | .loop l => by simp only [Statement.mapPositions, Statement.print, l.print_mapPositions]
  | .call c => by simp only [Statement.mapPositions, Statement.print, c.print_mapPositions]

@[simp] theorem Definition.print_mapPositions :
    (d : Definition) → (d.mapPositions f).print = d.print
  | ⟨_, _, body, returns, _⟩ => by
      simp only [Definition.mapPositions, Definition.print, printBody_mapPositions body,
        printReturns_mapPositions f returns]

@[simp] theorem Conditional.print_mapPositions :
    (c : Conditional) → (c.mapPositions f).print = c.print
  | ⟨condition, body, _⟩ => by
      simp only [Conditional.mapPositions, Conditional.print, condition.print_mapPositions,
        printBody_mapPositions body]

@[simp] theorem Loop.print_mapPositions : (l : Loop) → (l.mapPositions f).print = l.print
  | ⟨init, condition, step, body, _⟩ => by
      simp only [Loop.mapPositions, Loop.print, init.printBare_mapPositions,
        condition.print_mapPositions, step.print_mapPositions, printBody_mapPositions body]

@[simp] theorem printBody_mapPositions :
    (ss : List Statement) → printBody (mapStatements f ss) = printBody ss
  | [] => rfl
  | s :: ss => by
      simp only [mapStatements, printBody, s.print_mapPositions, printBody_mapPositions ss]

end

/-! ## Printed workflows -/

theorem joinLines_map {α : Type} (print : α → String) (g : α → α)
    (h : ∀ a, print (g a) = print a) (items : List α) :
    joinLines print (items.map g) = joinLines print items := by
  have hlines : print ∘ g = print := funext h
  rw [joinLines, joinLines, List.map_map, hlines]

theorem mapStatements_eq_map (ss : List Statement) :
    mapStatements f ss = ss.map (Statement.mapPositions f) := by
  induction ss with
  | nil => rfl
  | cons s ss ih => rw [mapStatements, ih, List.map_cons]

@[simp] theorem printScript_mapPositions (ss : List Statement) :
    printScript (mapStatements f ss) = printScript ss := by
  have hprint : Statement.print ∘ Statement.mapPositions f = Statement.print :=
    funext (Statement.print_mapPositions f)
  rw [printScript, printScript, mapStatements_eq_map, List.map_map, hprint]

@[simp] theorem Action.print_mapPositions (a : Action) : (a.mapPositions f).print = a.print := by
  have hline (s : Statement) : printStatementLine (s.mapPositions f) = printStatementLine s := by
    rw [printStatementLine, printStatementLine, s.print_mapPositions]
  have hlines := joinLines_map printStatementLine (Statement.mapPositions f) hline a.statements
  rw [mapPositions, print, mapStatements_eq_map, hlines]
  rfl

@[simp] theorem printGuard_mapPositions (guard : Option Condition) :
    printGuard (guard.map (Condition.mapPositions f)) = printGuard guard := by
  cases guard with
  | none => rfl
  | some c => simp only [Option.map_some, printGuard, Condition.print_mapPositions]

@[simp] theorem Transition.print_mapPositions (t : Transition) :
    (t.mapPositions f).print = t.print :=
  congrArg (fun guard => "    transition to " ++ t.target ++ guard ++ "\n")
    (printGuard_mapPositions f t.guard)

@[simp] theorem Node.print_mapPositions (n : Node) : (n.mapPositions f).print = n.print := by
  have hactions := joinLines_map Action.print (Action.mapPositions f)
    (Action.print_mapPositions f) n.actions
  have htransitions := joinLines_map Transition.print (Transition.mapPositions f)
    (Transition.print_mapPositions f) n.transitions
  rw [mapPositions, print, hactions, htransitions]
  rfl

@[simp] theorem Workflow.print_mapPositions (w : Workflow) :
    (w.mapPositions f).print = w.print := by
  have hnodes := joinLines_map Node.print (Node.mapPositions f) (Node.print_mapPositions f) w.nodes
  rw [mapPositions, print, hnodes]
  rfl

/-! ## Target code of expressions -/

section Generated

variable (names : Resolver)

@[simp] theorem isEmpty_mapAddends (ts : List (AddOp × Term)) :
    (mapAddends f ts).isEmpty = ts.isEmpty := by
  cases ts <;> rfl

@[simp] theorem isEmpty_mapMultipliers (fs : List (MulOp × Factor)) :
    (mapMultipliers f fs).isEmpty = fs.isEmpty := by
  cases fs <;> rfl

mutual

@[simp] theorem Condition.generate_mapPositions :
    (c : Condition) → (c.mapPositions f).generate names = c.generate names
  | ⟨first, rest⟩ => by
      simp only [Condition.mapPositions, Condition.generate, first.generate_mapPositions,
        generateAlternatives_mapPositions rest]

@[simp] theorem generateAlternatives_mapPositions : (cs : List Conjunction) →
    generateAlternatives names (mapConjunctions f cs) = generateAlternatives names cs
  | [] => rfl
  | c :: cs => by
      simp only [mapConjunctions, generateAlternatives, c.generate_mapPositions,
        generateAlternatives_mapPositions cs]

@[simp] theorem Conjunction.generate_mapPositions :
    (c : Conjunction) → (c.mapPositions f).generate names = c.generate names
  | ⟨first, rest⟩ => by
      simp only [Conjunction.mapPositions, Conjunction.generate, first.generate_mapPositions,
        generateConjuncts_mapPositions rest]

@[simp] theorem generateConjuncts_mapPositions : (cs : List Clause) →
    generateConjuncts names (mapClauses f cs) = generateConjuncts names cs
  | [] => rfl
  | c :: cs => by
      simp only [mapClauses, generateConjuncts, c.generate_mapPositions,
        generateConjuncts_mapPositions cs]

@[simp] theorem Clause.generate_mapPositions :
    (c : Clause) → (c.mapPositions f).generate names = c.generate names
  | ⟨true, relation⟩ => by
      simp only [Clause.mapPositions, Clause.generate, relation.generate_mapPositions]
  | ⟨false, relation⟩ => by
      simp only [Clause.mapPositions, Clause.generate, relation.generate_mapPositions]

@[simp] theorem Relation.generate_mapPositions :
    (r : Relation) → (r.mapPositions f).generate names = r.generate names
  | ⟨left, none⟩ => by
      simp only [Relation.mapPositions, Relation.generate, left.generate_mapPositions]
  | ⟨left, some (_, right)⟩ => by
      simp only [Relation.mapPositions, Relation.generate, left.generate_mapPositions,
        right.generate_mapPositions]

@[simp] theorem Expression.generate_mapPositions :
    (e : Expression) → (e.mapPositions f).generate names = e.generate names
  | ⟨first, rest⟩ => by
      simp only [Expression.mapPositions, Expression.generate, first.generate_mapPositions,
        generateAddends_mapPositions rest, isEmpty_mapAddends]

@[simp] theorem generateAddends_mapPositions : (ts : List (AddOp × Term)) →
    generateAddends names (mapAddends f ts) = generateAddends names ts
  | [] => rfl
  | (_, t) :: ts => by
      simp only [mapAddends, generateAddends, t.generate_mapPositions,
        generateAddends_mapPositions ts]

@[simp] theorem Term.generate_mapPositions :
    (t : Term) → (t.mapPositions f).generate names = t.generate names
  | ⟨first, rest⟩ => by
      simp only [Term.mapPositions, Term.generate, first.generate_mapPositions,
        generateMultipliers_mapPositions rest, isEmpty_mapMultipliers]

@[simp] theorem generateMultipliers_mapPositions : (fs : List (MulOp × Factor)) →
    generateMultipliers names (mapMultipliers f fs) = generateMultipliers names fs
  | [] => rfl
  | (_, x) :: fs => by
      simp only [mapMultipliers, generateMultipliers, x.generate_mapPositions,
        generateMultipliers_mapPositions fs]

@[simp] theorem Factor.generate_mapPositions :
    (x : Factor) → (x.mapPositions f).generate names = x.generate names
  | .variable _ _ | .integer _ | .string _ | .bool true | .bool false => rfl
  | .call c => by simp only [Factor.mapPositions, Factor.generate, c.generate_mapPositions]
  | .group inner => by
      simp only [Factor.mapPositions, Factor.generate, inner.generate_mapPositions]

@[simp] theorem Call.generate_mapPositions :
    (c : Call) → (c.mapPositions f).generate names = c.generate names
  | ⟨_, [], _⟩ => rfl
  | ⟨_, e :: es, _⟩ => by
      simp only [Call.mapPositions, mapArguments, Call.generate, e.generate_mapPositions,
        generateArguments_mapPositions es]

@[simp] theorem generateArguments_mapPositions : (es : List Expression) →
    generateArguments names (mapArguments f es) = generateArguments names es
  | [] => rfl
  | e :: es => by
      simp only [mapArguments, generateArguments, e.generate_mapPositions,
        generateArguments_mapPositions es]

end

/-! ## Target code of statements -/

@[simp] theorem Declaration.generate_mapPositions (d : Declaration) :
    (d.mapPositions f).generate names = d.generate names := by
  simp only [mapPositions, generate, Expression.generate_mapPositions]
  rfl

@[simp] theorem Assignment.generate_mapPositions (a : Assignment) :
    (a.mapPositions f).generate names = a.generate names := by
  simp only [mapPositions, generate, Expression.generate_mapPositions]

@[simp] theorem generateReturns_mapPositions (returns : Option Expression) :
    generateReturns names (returns.map (Expression.mapPositions f)) =
      generateReturns names returns := by
  cases returns with
  | none => rfl
  | some e => simp only [Option.map_some, generateReturns, Expression.generate_mapPositions]

end Generated

-- A definition changes the resolver for its body, so the resolver varies in these.
mutual

@[simp] theorem Statement.generate_mapPositions (names : Resolver) :
    (s : Statement) → (s.mapPositions f).generate names = s.generate names
  | .definition d => by
      simp only [Statement.mapPositions, Statement.generate, d.generate_mapPositions]
  | .declaration d => by
      simp only [Statement.mapPositions, Statement.generate, d.generate_mapPositions]
  | .assignment a => by
      simp only [Statement.mapPositions, Statement.generate, a.generate_mapPositions]
  | .conditional c => by
      simp only [Statement.mapPositions, Statement.generate, c.generate_mapPositions]
  | .loop l => by
      simp only [Statement.mapPositions, Statement.generate, l.generate_mapPositions]
  | .call c => by
      simp only [Statement.mapPositions, Statement.generate, c.generate_mapPositions]

@[simp] theorem Definition.generate_mapPositions (names : Resolver) :
    (d : Definition) → (d.mapPositions f).generate names = d.generate names
  | ⟨_, params, body, returns, _⟩ => by
      simp only [Definition.mapPositions, Definition.generate,
        generateScript_mapPositions (names.within params) body,
        generateReturns_mapPositions f (names.within params) returns]

@[simp] theorem Conditional.generate_mapPositions (names : Resolver) :
    (c : Conditional) → (c.mapPositions f).generate names = c.generate names
  | ⟨condition, body, _⟩ => by
      simp only [Conditional.mapPositions, Conditional.generate,
        condition.generate_mapPositions, generateScript_mapPositions names body]

@[simp] theorem Loop.generate_mapPositions (names : Resolver) :
    (l : Loop) → (l.mapPositions f).generate names = l.generate names
  | ⟨init, condition, step, body, _⟩ => by
      simp only [Loop.mapPositions, Loop.generate, init.generate_mapPositions,
        condition.generate_mapPositions, step.generate_mapPositions,
        generateScript_mapPositions names body]

@[simp] theorem generateScript_mapPositions (names : Resolver) : (ss : List Statement) →
    generateScript names (mapStatements f ss) = generateScript names ss
  | [] => rfl
  | s :: ss => by
      simp only [mapStatements, generateScript, s.generate_mapPositions,
        generateScript_mapPositions names ss]

end

/-! ## Target code of workflows -/

section Listed

variable (names : Resolver)

@[simp] theorem Action.generate_mapPositions (a : Action) :
    (a.mapPositions f).generate names = a.generate names :=
  generateScript_mapPositions f names a.statements

@[simp] theorem Transition.generateGuard_mapPositions (t : Transition) :
    (t.mapPositions f).generateGuard names = t.generateGuard names := by
  rcases t with ⟨target, _ | guard, position⟩
  · rfl
  · exact guard.generate_mapPositions f names

@[simp] theorem Node.listing_mapPositions (n : Node) :
    (n.mapPositions f).listing names = n.listing names := by
  have hphase (a : Action) : (a.mapPositions f).phase = a.phase := rfl
  have htarget (t : Transition) : (t.mapPositions f).target = t.target := rfl
  simp only [mapPositions, listing, List.map_map, Function.comp_def, hphase, htarget,
    Action.generate_mapPositions, Transition.generateGuard_mapPositions]

@[simp] theorem Workflow.render_mapPositions (w : Workflow) :
    (w.mapPositions f).render names = w.render names := by
  simp only [mapPositions, render, List.flatMap_map, Node.listing_mapPositions]

end Listed

/-! ## Fragments -/

namespace Fragment

@[simp] theorem print_mapPositions (x : Fragment) : (x.mapPositions f).print = x.print := by
  cases x <;> simp [mapPositions, print]

@[simp] theorem generate_mapPositions (names : Resolver) (x : Fragment) :
    (x.mapPositions f).generate names = x.generate names := by
  cases x <;> simp [mapPositions, generate]

/-- Fragments that agree up to positions are printed alike. -/
theorem print_eq {x y : Fragment} (h : x.erasePositions = y.erasePositions) :
    x.print = y.print := by
  rw [← print_mapPositions (fun _ => .start) x, ← print_mapPositions (fun _ => .start) y]
  exact congrArg print h

/-- Fragments that agree up to positions become the same code. -/
theorem generate_eq {x y : Fragment} (names : Resolver)
    (h : x.erasePositions = y.erasePositions) : x.generate names = y.generate names := by
  rw [← generate_mapPositions (fun _ => .start) names x,
    ← generate_mapPositions (fun _ => .start) names y]
  exact congrArg (generate names) h

end Fragment

end WorkflowScript
