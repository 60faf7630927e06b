import WorkflowScript.Encoding.Workflow
import WorkflowScript.Grammar.Workflow

/-!
# Fragments

Every rule of the grammar can be used on its own. `Production` names the
rules, `Fragment` is the tree that one of them yields, and the functions
here read a fragment from tokens, from text or from JSON by the rule's
name and write it as JSON.
-/

namespace WorkflowScript

/-- A rule of the grammar. -/
inductive Production where
  | workflow | node | action | transition
  | script | statement | definition | call | declaration | bareDeclaration
  | assignment | conditional | loop
  | condition | conjunction | clause | relation | expression | term | factor
deriving Repr, DecidableEq

/-- The tree of some rule. -/
inductive Fragment where
  | workflow (w : Workflow)
  | node (n : Node)
  | action (a : Action)
  | transition (t : Transition)
  | script (statements : List Statement)
  | statement (s : Statement)
  | definition (d : Definition)
  | call (c : Call)
  | declaration (d : Declaration)
  | assignment (a : Assignment)
  | conditional (c : Conditional)
  | loop (l : Loop)
  | condition (c : Condition)
  | conjunction (c : Conjunction)
  | clause (c : Clause)
  | relation (r : Relation)
  | expression (e : Expression)
  | term (t : Term)
  | factor (f : Factor)

/-! ## Reading tokens and text -/

/-- The parser of a rule, with all levels of nesting free. -/
def Production.parser {σ : Type} [TokenSource σ] : Production → Parser σ Fragment
  | .workflow => .workflow <$> Grammar.workflow maxNesting
  | .node => .node <$> Grammar.node maxNesting
  | .action => .action <$> Grammar.action maxNesting
  | .transition => .transition <$> Grammar.transition maxNesting
  | .script => .script <$> Grammar.script maxNesting
  | .statement => .statement <$> Grammar.statement maxNesting
  | .definition => .definition <$> Grammar.definition maxNesting
  | .call => .call <$> Grammar.call maxNesting
  | .declaration => .declaration <$> Grammar.declaration maxNesting
  | .bareDeclaration => .declaration <$> Grammar.bareDeclaration maxNesting
  | .assignment => .assignment <$> Grammar.assignment maxNesting
  | .conditional => .conditional <$> Grammar.conditional maxNesting
  | .loop => .loop <$> Grammar.loop maxNesting
  | .condition => .condition <$> Grammar.condition maxNesting
  | .conjunction => .conjunction <$> Grammar.conjunction maxNesting
  | .clause => .clause <$> Grammar.clause maxNesting
  | .relation => .relation <$> Grammar.relation maxNesting
  | .expression => .expression <$> Grammar.expression maxNesting
  | .term => .term <$> Grammar.term maxNesting
  | .factor => .factor <$> Grammar.factor maxNesting

/-- The parser of a rule that must reach the end of the input. -/
def Production.parserToEnd {σ : Type} [TokenSource σ] : Production → Parser σ Fragment
  | .condition => .condition <$> Grammar.conditionToEnd
  | .script => .script <$> Grammar.script maxNesting
  | p => Parser.toEnd p.parser

/-- Parses a text that holds exactly one fragment of the given rule. -/
def Production.parseText (p : Production) (text : String) : Outcome Scanner Fragment :=
  p.parserToEnd.run (Scanner.ofText text)

/-! ## JSON -/

def Fragment.toJson : Fragment → Json
  | .workflow w => w.toJson
  | .node n => n.toJson
  | .action a => a.toJson
  | .transition t => t.toJson
  | .script statements => .array (statementsToJson statements)
  | .statement s => s.toJson
  | .definition d => d.toJson
  | .call c => c.toJson
  | .declaration d => d.toJson
  | .assignment a => a.toJson
  | .conditional c => c.toJson
  | .loop l => l.toJson
  | .condition c => c.toJson
  | .conjunction c => c.toJson
  | .clause c => c.toJson
  | .relation r => r.toJson
  | .expression e => e.toJson
  | .term t => t.toJson
  | .factor f => f.toJson

/-- The fragment of a rule that a JSON value stands for. -/
def Production.ofJson? (p : Production) (j : Json) : Option Fragment :=
  match p with
  | .workflow => (Workflow.ofJson? j).map .workflow
  | .node => (Node.ofJson? j).map .node
  | .action => (Action.ofJson? j).map .action
  | .transition => (Transition.ofJson? j).map .transition
  | .script => (Json.asList Statement.ofJson? j).map .script
  | .statement => (Statement.ofJson? j).map .statement
  | .definition => (Definition.ofJson? j).map .definition
  | .call => (Call.ofJson? j).map .call
  | .declaration | .bareDeclaration => (Declaration.ofJson? j).map .declaration
  | .assignment => (Assignment.ofJson? j).map .assignment
  | .conditional => (Conditional.ofJson? j).map .conditional
  | .loop => (Loop.ofJson? j).map .loop
  | .condition => (Condition.ofJson? j).map .condition
  | .conjunction => (Conjunction.ofJson? j).map .conjunction
  | .clause => (Clause.ofJson? j).map .clause
  | .relation => (Relation.ofJson? j).map .relation
  | .expression => (Expression.ofJson? j).map .expression
  | .term => (Term.ofJson? j).map .term
  | .factor => (Factor.ofJson? j).map .factor

end WorkflowScript
