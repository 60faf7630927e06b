import WorkflowScript.Fragment.Basic

/-!
# Labels

What a tree takes over from the tokens of its source are its labels: its
words, that is the names and the texts of the literals, and its positions.
All else is its skeleton: which nodes there are, of which forms and with
which operators.

`relabel f g` sends the words of a tree through `f` and the positions through
`g`, and keeps the skeleton. `labels` lists them, as a walk through the tree
meets them.
-/

namespace WorkflowScript

inductive Label where
  /-- A name, or the text of a literal. -/
  | word (text : String)
  | place (position : Position)
deriving Repr, DecidableEq

def Label.map (f : String → String) (g : Position → Position) : Label → Label
  | word text => word (f text)
  | place position => place (g position)

/-! ## Other labels -/

def Token.relabel (f : String → String) (g : Position → Position) (t : Token) : Token :=
  ⟨t.kind, f t.text, g t.position⟩

section Relabel

variable (f : String → String) (g : Position → Position)

mutual

def Condition.relabel : Condition → Condition
  | ⟨first, rest⟩ => ⟨first.relabel, relabelConjunctions rest⟩

def relabelConjunctions : List Conjunction → List Conjunction
  | [] => []
  | c :: cs => c.relabel :: relabelConjunctions cs

def Conjunction.relabel : Conjunction → Conjunction
  | ⟨first, rest⟩ => ⟨first.relabel, relabelClauses rest⟩

def relabelClauses : List Clause → List Clause
  | [] => []
  | c :: cs => c.relabel :: relabelClauses cs

def Clause.relabel : Clause → Clause
  | ⟨negated, relation⟩ => ⟨negated, relation.relabel⟩

def Relation.relabel : Relation → Relation
  | ⟨left, none⟩ => ⟨left.relabel, none⟩
  | ⟨left, some (op, right)⟩ => ⟨left.relabel, some (op, right.relabel)⟩

def Expression.relabel : Expression → Expression
  | ⟨first, rest⟩ => ⟨first.relabel, relabelAddends rest⟩

def relabelAddends : List (AddOp × Term) → List (AddOp × Term)
  | [] => []
  | (op, t) :: rest => (op, t.relabel) :: relabelAddends rest

def Term.relabel : Term → Term
  | ⟨first, rest⟩ => ⟨first.relabel, relabelMultipliers rest⟩

def relabelMultipliers : List (MulOp × Factor) → List (MulOp × Factor)
  | [] => []
  | (op, x) :: rest => (op, x.relabel) :: relabelMultipliers rest

def Factor.relabel : Factor → Factor
  | .variable name position => .variable (f name) (g position)
  | .call call => .call call.relabel
  | .integer text => .integer (f text)
  | .string text => .string (f text)
  | .bool value => .bool value
  | .group inner => .group inner.relabel

def Call.relabel : Call → Call
  | ⟨name, args, position⟩ => ⟨f name, relabelArguments args, g position⟩

def relabelArguments : List Expression → List Expression
  | [] => []
  | e :: es => e.relabel :: relabelArguments es

end

def Declaration.relabel (d : Declaration) : Declaration :=
  ⟨f d.name, d.value.relabel f g, g d.position⟩

def Assignment.relabel (a : Assignment) : Assignment :=
  ⟨f a.name, a.value.relabel f g, g a.position⟩

mutual

def Statement.relabel : Statement → Statement
  | .definition d => .definition d.relabel
  | .declaration d => .declaration (d.relabel f g)
  | .assignment a => .assignment (a.relabel f g)
  | .conditional c => .conditional c.relabel
  | .loop l => .loop l.relabel
  | .call c => .call (c.relabel f g)

def Definition.relabel : Definition → Definition
  | ⟨name, params, body, returns, position⟩ =>
    ⟨f name, params.map f, relabelStatements body, returns.map (Expression.relabel f g),
      g position⟩

def Conditional.relabel : Conditional → Conditional
  | ⟨condition, body, position⟩ => ⟨condition.relabel f g, relabelStatements body, g position⟩

def Loop.relabel : Loop → Loop
  | ⟨init, condition, step, body, position⟩ =>
    ⟨init.relabel f g, condition.relabel f g, step.relabel f g, relabelStatements body,
      g position⟩

def relabelStatements : List Statement → List Statement
  | [] => []
  | s :: ss => s.relabel :: relabelStatements ss

end

def Action.relabel (a : Action) : Action :=
  ⟨a.phase, relabelStatements f g a.statements, g a.position⟩

def Transition.relabel (t : Transition) : Transition :=
  ⟨f t.target, t.guard.map (Condition.relabel f g), g t.position⟩

def Node.relabel (n : Node) : Node :=
  ⟨n.kind, f n.name, n.actions.map (Action.relabel f g),
    n.transitions.map (Transition.relabel f g), g n.position⟩

def Workflow.relabel (w : Workflow) : Workflow :=
  ⟨f w.name, w.nodes.map (Node.relabel f g), g w.position⟩

def Fragment.relabel : Fragment → Fragment
  | workflow w => workflow (w.relabel f g)
  | node n => node (n.relabel f g)
  | action a => action (a.relabel f g)
  | transition t => transition (t.relabel f g)
  | script statements => script (relabelStatements f g statements)
  | statement s => statement (s.relabel f g)
  | definition d => definition (d.relabel f g)
  | call c => call (c.relabel f g)
  | declaration d => declaration (d.relabel f g)
  | assignment a => assignment (a.relabel f g)
  | conditional c => conditional (c.relabel f g)
  | loop l => loop (l.relabel f g)
  | condition c => condition (c.relabel f g)
  | conjunction c => conjunction (c.relabel f g)
  | clause c => clause (c.relabel f g)
  | relation r => relation (r.relabel f g)
  | expression e => expression (e.relabel f g)
  | term t => term (t.relabel f g)
  | factor x => factor (x.relabel f g)

end Relabel

/-- The tree without its labels. -/
def Fragment.skeleton (t : Fragment) : Fragment := t.relabel (fun _ => "") fun _ => .start

/-! ## All labels of a tree -/

mutual

def Condition.labels : Condition → List Label
  | ⟨first, rest⟩ => first.labels ++ labelsOfConjunctions rest

def labelsOfConjunctions : List Conjunction → List Label
  | [] => []
  | c :: cs => c.labels ++ labelsOfConjunctions cs

def Conjunction.labels : Conjunction → List Label
  | ⟨first, rest⟩ => first.labels ++ labelsOfClauses rest

def labelsOfClauses : List Clause → List Label
  | [] => []
  | c :: cs => c.labels ++ labelsOfClauses cs

def Clause.labels : Clause → List Label
  | ⟨_, relation⟩ => relation.labels

def Relation.labels : Relation → List Label
  | ⟨left, none⟩ => left.labels
  | ⟨left, some (_, right)⟩ => left.labels ++ right.labels

def Expression.labels : Expression → List Label
  | ⟨first, rest⟩ => first.labels ++ labelsOfAddends rest

def labelsOfAddends : List (AddOp × Term) → List Label
  | [] => []
  | (_, t) :: rest => t.labels ++ labelsOfAddends rest

def Term.labels : Term → List Label
  | ⟨first, rest⟩ => first.labels ++ labelsOfMultipliers rest

def labelsOfMultipliers : List (MulOp × Factor) → List Label
  | [] => []
  | (_, x) :: rest => x.labels ++ labelsOfMultipliers rest

def Factor.labels : Factor → List Label
  | .variable name position => [.word name, .place position]
  | .call call => call.labels
  | .integer text => [.word text]
  | .string text => [.word text]
  | .bool _ => []
  | .group inner => inner.labels

def Call.labels : Call → List Label
  | ⟨name, args, position⟩ => .word name :: .place position :: labelsOfArguments args

def labelsOfArguments : List Expression → List Label
  | [] => []
  | e :: es => e.labels ++ labelsOfArguments es

end

def Declaration.labels (d : Declaration) : List Label :=
  .place d.position :: .word d.name :: d.value.labels

def Assignment.labels (a : Assignment) : List Label :=
  .place a.position :: .word a.name :: a.value.labels

/-- The labels of what may be missing. -/
def labelsOfOption {α : Type} (labels : α → List Label) : Option α → List Label
  | none => []
  | some a => labels a

mutual

def Statement.labels : Statement → List Label
  | .definition d => d.labels
  | .declaration d => d.labels
  | .assignment a => a.labels
  | .conditional c => c.labels
  | .loop l => l.labels
  | .call c => c.labels

def Definition.labels : Definition → List Label
  | ⟨name, params, body, returns, position⟩ =>
    .place position :: .word name :: (params.map Label.word ++
      (labelsOfStatements body ++ labelsOfOption Expression.labels returns))

def Conditional.labels : Conditional → List Label
  | ⟨condition, body, position⟩ =>
    .place position :: (condition.labels ++ labelsOfStatements body)

def Loop.labels : Loop → List Label
  | ⟨init, condition, step, body, position⟩ =>
    .place position :: (init.labels ++ (condition.labels ++
      (step.labels ++ labelsOfStatements body)))

def labelsOfStatements : List Statement → List Label
  | [] => []
  | s :: ss => s.labels ++ labelsOfStatements ss

end

def Action.labels (a : Action) : List Label := .place a.position :: labelsOfStatements a.statements

def Transition.labels (t : Transition) : List Label :=
  .place t.position :: .word t.target :: labelsOfOption Condition.labels t.guard

/-- The labels of a node, of its actions and then of its transitions. -/
def Node.labels (n : Node) : List Label :=
  .place n.position :: .word n.name ::
    (n.actions.flatMap Action.labels ++ n.transitions.flatMap Transition.labels)

def Workflow.labels (w : Workflow) : List Label :=
  .place w.position :: .word w.name :: w.nodes.flatMap Node.labels

def Fragment.labels : Fragment → List Label
  | workflow w => w.labels
  | node n => n.labels
  | action a => a.labels
  | transition t => t.labels
  | script statements => labelsOfStatements statements
  | statement s => s.labels
  | definition d => d.labels
  | call c => c.labels
  | declaration d => d.labels
  | assignment a => a.labels
  | conditional c => c.labels
  | loop l => l.labels
  | condition c => c.labels
  | conjunction c => c.labels
  | clause c => c.labels
  | relation r => r.labels
  | expression e => e.labels
  | term t => t.labels
  | factor x => x.labels

end WorkflowScript
