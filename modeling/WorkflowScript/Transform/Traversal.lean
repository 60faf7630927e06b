import WorkflowScript.Transform.Basic

/-!
# Transforming trees

A visit offers a node to the transformer and goes on with the children of
whatever the transformer answers, printing the result on the way. It is in
the order of the source: a statement before its payload, the head of
a loop before its body, a left operand before the right one.

A transformer may answer with a larger tree than it was offered, so a
visit need not end by itself. Only factors and statements lead back to their own
kind; each of these steps takes one unit of fuel, and the layers between
them are written over the visit of what they contain.
-/

namespace WorkflowScript.Transform

open Visit

variable {σ : Type} (t : Transformer σ)

/-! ## Expressions -/

section Layers

variable (factor : Factor → Visit σ Factor)

def termOver (x : Term) : Visit σ Term := do
  let x ← offer t .term x
  let first ← factor x.first
  let rest ← eachOperand MulOp.symbol factor x.rest
  pure ⟨first, rest⟩

def expressionOver (e : Expression) : Visit σ Expression := do
  let e ← offer t .expression e
  let first ← termOver t factor e.first
  let rest ← eachOperand AddOp.symbol (termOver t factor) e.rest
  pure ⟨first, rest⟩

/-- The comparison of a relation, if it has one. -/
def comparisonOver : Option (RelOp × Expression) → Visit σ (Option (RelOp × Expression))
  | none => pure none
  | some (op, right) => do
    emit (" " ++ op.symbol ++ " ")
    let right ← expressionOver t factor right
    pure (some (op, right))

def relationOver (x : Relation) : Visit σ Relation := do
  let x ← offer t .relation x
  let left ← expressionOver t factor x.left
  let comparison ← comparisonOver t factor x.comparison
  pure ⟨left, comparison⟩

def clauseOver (c : Clause) : Visit σ Clause := do
  let c ← offer t .clause c
  emit (if c.negated then "not " else "")
  let relation ← relationOver t factor c.relation
  pure ⟨c.negated, relation⟩

def conjunctionOver (c : Conjunction) : Visit σ Conjunction := do
  let c ← offer t .conjunction c
  let first ← clauseOver t factor c.first
  let rest ← eachAfter " and " (clauseOver t factor) c.rest
  pure ⟨first, rest⟩

def conditionOver (c : Condition) : Visit σ Condition := do
  let c ← offer t .condition c
  let first ← conjunctionOver t factor c.first
  let rest ← eachAfter " or " (conjunctionOver t factor) c.rest
  pure ⟨first, rest⟩

def callOver (c : Call) : Visit σ Call := do
  let c ← offer t .call c
  emit (c.name ++ "(")
  let args ← eachBetween ", " (expressionOver t factor) c.args
  emit ")"
  pure ⟨c.name, args, c.position⟩

/-- The parts of a factor, given the visit of the factors inside it. -/
def factorParts : Factor → Visit σ Factor
  | .variable name position => do
    emit name
    pure (.variable name position)
  | .call call => do
    let call ← callOver t factor call
    pure (.call call)
  | .integer text => do
    emit text
    pure (.integer text)
  | .string text => do
    emit text
    pure (.string text)
  | .bool value => do
    emit (if value then "true" else "false")
    pure (.bool value)
  | .group inner => do
    emit "("
    let inner ← conditionOver t factor inner
    emit ")"
    pure (.group inner)

def factorOver (f : Factor) : Visit σ Factor := do
  let f ← offer t .factor f
  factorParts t factor f

end Layers

def factor : (fuel : Nat) → Factor → Visit σ Factor
  | 0, _ => exhausted
  | fuel + 1, f => factorOver t (factor fuel) f

def term (fuel : Nat) (x : Term) : Visit σ Term := termOver t (factor t fuel) x

def expression (fuel : Nat) (e : Expression) : Visit σ Expression :=
  expressionOver t (factor t fuel) e

def relation (fuel : Nat) (x : Relation) : Visit σ Relation :=
  relationOver t (factor t fuel) x

def clause (fuel : Nat) (c : Clause) : Visit σ Clause := clauseOver t (factor t fuel) c

def conjunction (fuel : Nat) (c : Conjunction) : Visit σ Conjunction :=
  conjunctionOver t (factor t fuel) c

def condition (fuel : Nat) (c : Condition) : Visit σ Condition :=
  conditionOver t (factor t fuel) c

def call (fuel : Nat) (c : Call) : Visit σ Call := callOver t (factor t fuel) c

/-! ## Statements -/

/-- A declaration as the head of a loop shows it. -/
def bareDeclaration (fuel : Nat) (d : Declaration) : Visit σ Declaration := do
  let d ← offer t .declaration d
  emit (d.name ++ " = ")
  let value ← expression t fuel d.value
  pure ⟨d.name, value, d.position⟩

def declaration (fuel : Nat) (d : Declaration) : Visit σ Declaration := do
  emit "var "
  bareDeclaration t fuel d

def assignment (fuel : Nat) (a : Assignment) : Visit σ Assignment := do
  let a ← offer t .assignment a
  emit (a.name ++ " = ")
  let value ← expression t fuel a.value
  pure ⟨a.name, value, a.position⟩

/-- The return expression of a definition, if it has one. -/
def returnsWith (fuel : Nat) : Option Expression → Visit σ (Option Expression)
  | none => pure none
  | some value => do
    emit " return "
    let value ← expression t fuel value
    pure (some value)

section Bodies

variable (statement : Statement → Visit σ Statement) (fuel : Nat)

def definitionOver (d : Definition) : Visit σ Definition := do
  let d ← offer t .definition d
  emit ("def " ++ d.name ++ "(" ++ ", ".intercalate d.params ++ ")")
  let body ← eachAfter " " statement d.body
  let returns ← returnsWith t fuel d.returns
  emit " end"
  pure ⟨d.name, d.params, body, returns, d.position⟩

def conditionalOver (c : Conditional) : Visit σ Conditional := do
  let c ← offer t .conditional c
  emit "if "
  let test ← condition t fuel c.condition
  emit " then"
  let body ← eachAfter " " statement c.body
  emit " end"
  pure ⟨test, body, c.position⟩

def loopOver (l : Loop) : Visit σ Loop := do
  let l ← offer t .loop l
  emit "for "
  let init ← bareDeclaration t fuel l.init
  emit "; "
  let test ← relation t fuel l.condition
  emit "; "
  let step ← assignment t fuel l.step
  emit " do"
  let body ← eachAfter " " statement l.body
  emit " end"
  pure ⟨init, test, step, body, l.position⟩

/-- The payload of a statement, given the visit of the statements inside
it. -/
def statementParts : Statement → Visit σ Statement
  | .definition d => Statement.definition <$> definitionOver t statement fuel d
  | .declaration d => Statement.declaration <$> declaration t fuel d
  | .assignment a => Statement.assignment <$> assignment t fuel a
  | .conditional c => Statement.conditional <$> conditionalOver t statement fuel c
  | .loop l => Statement.loop <$> loopOver t statement fuel l
  | .call c => Statement.call <$> call t fuel c

def statementOver (s : Statement) : Visit σ Statement := do
  let s ← offer t .statement s
  statementParts t statement fuel s

end Bodies

def statement : (fuel : Nat) → Statement → Visit σ Statement
  | 0, _ => exhausted
  | fuel + 1, s => statementOver t (statement fuel) fuel s

def definition (fuel : Nat) (d : Definition) : Visit σ Definition :=
  definitionOver t (statement t fuel) fuel d

def conditional (fuel : Nat) (c : Conditional) : Visit σ Conditional :=
  conditionalOver t (statement t fuel) fuel c

def loop (fuel : Nat) (l : Loop) : Visit σ Loop := loopOver t (statement t fuel) fuel l

/-- The statements of a script, each on a line of its own. -/
def script (fuel : Nat) (statements : List Statement) : Visit σ (List Statement) :=
  eachBetween "\n" (statement t fuel) statements

/-! ## Workflows -/

/-- A statement on a line of an action. -/
def statementLine (fuel : Nat) (s : Statement) : Visit σ Statement := do
  let s ← statement t fuel s
  emit "\n"
  pure s

def action (fuel : Nat) (a : Action) : Visit σ Action := do
  emit ("    " ++ a.phase.keyword ++ "\n")
  let statements ← eachAfter "      " (statementLine t fuel) a.statements
  emit "    end\n"
  pure ⟨a.phase, statements, a.position⟩

/-- The guard of a transition, if it has one. -/
def guardWith (fuel : Nat) : Option Condition → Visit σ (Option Condition)
  | none => pure none
  | some guard => do
    emit " if "
    let guard ← condition t fuel guard
    pure (some guard)

def transition (fuel : Nat) (x : Transition) : Visit σ Transition := do
  emit ("    transition to " ++ x.target)
  let guard ← guardWith t fuel x.guard
  emit "\n"
  pure ⟨x.target, guard, x.position⟩

def node (fuel : Nat) (n : Node) : Visit σ Node := do
  emit ("  " ++ n.kind.keyword ++ " " ++ n.name ++ "\n")
  let actions ← eachAfter "" (action t fuel) n.actions
  let transitions ← eachAfter "" (transition t fuel) n.transitions
  emit "  end\n"
  pure ⟨n.kind, n.name, actions, transitions, n.position⟩

def workflow (fuel : Nat) (w : Workflow) : Visit σ Workflow := do
  emit ("workflow " ++ w.name ++ "\n")
  let nodes ← eachAfter "" (node t fuel) w.nodes
  emit "end\n"
  pure ⟨w.name, nodes, w.position⟩

end WorkflowScript.Transform
