import WorkflowScript.Fragment.Operations
import WorkflowScript.Transform.Traversal
import WorkflowScript.Workflow.Nesting

/-!
# Transforming any fragment

Hooks and fragments are two views of the same nodes: a node offered to a
hook is a fragment of its own, to be parsed and printed, and every fragment
can be transformed.
-/

namespace WorkflowScript

/-! ## Hooks -/

namespace Hook

/-- A node as a fragment. -/
def toFragment : (h : Hook) → h.Node → Fragment
  | .statement => .statement
  | .definition => .definition
  | .declaration => .declaration
  | .assignment => .assignment
  | .conditional => .conditional
  | .loop => .loop
  | .call => .call
  | .condition => .condition
  | .conjunction => .conjunction
  | .clause => .clause
  | .relation => .relation
  | .expression => .expression
  | .term => .term
  | .factor => .factor

/-- The parser of a hook's nodes. -/
def parser {σ : Type} [TokenSource σ] : (h : Hook) → Parser σ h.Node
  | .statement => Grammar.statement maxNesting
  | .definition => Grammar.definition maxNesting
  | .declaration => Grammar.declaration maxNesting
  | .assignment => Grammar.assignment maxNesting
  | .conditional => Grammar.conditional maxNesting
  | .loop => Grammar.loop maxNesting
  | .call => Grammar.call maxNesting
  | .condition => Grammar.condition maxNesting
  | .conjunction => Grammar.conjunction maxNesting
  | .clause => Grammar.clause maxNesting
  | .relation => Grammar.relation maxNesting
  | .expression => Grammar.expression maxNesting
  | .term => Grammar.term maxNesting
  | .factor => Grammar.factor maxNesting

/-- The node that a whole text holds. -/
def parseText (h : Hook) (text : String) : Except ParseError h.Node :=
  ((Parser.toEnd h.parser).run (Scanner.ofText text)).result

/-- The node's normal written form. -/
def print (h : Hook) (node : h.Node) : String := (h.toFragment node).print

end Hook

/-! ## Fragments -/

namespace Fragment

/-- How many levels of nesting a fragment needs. -/
def nesting : Fragment → Nat
  | workflow w => w.nesting
  | node n => n.nesting
  | action a => a.nesting
  | transition t => t.nesting
  | script statements => nestingOfStatements statements
  | statement s => s.nesting
  | definition d => d.nesting
  | call c => c.nesting
  | declaration d => d.nesting
  | assignment a => a.nesting
  | conditional c => c.nesting
  | loop l => l.nesting
  | condition c => c.nesting
  | conjunction c => c.nesting
  | clause c => c.nesting
  | relation r => r.nesting
  | expression e => e.nesting
  | term t => t.nesting
  | factor f => f.nesting

/-- The transformation of any fragment. -/
def transform {σ : Type} (t : Transformer σ) (fuel : Nat) : Fragment → Visit σ Fragment
  | workflow w => workflow <$> Transform.workflow t fuel w
  | node n => node <$> Transform.node t fuel n
  | action a => action <$> Transform.action t fuel a
  | transition x => transition <$> Transform.transition t fuel x
  | script statements => script <$> Transform.script t fuel statements
  | statement s => statement <$> Transform.statement t fuel s
  | definition d => definition <$> Transform.definition t fuel d
  | call c => call <$> Transform.call t fuel c
  | declaration d => declaration <$> Transform.declaration t fuel d
  | assignment a => assignment <$> Transform.assignment t fuel a
  | conditional c => conditional <$> Transform.conditional t fuel c
  | loop l => loop <$> Transform.loop t fuel l
  | condition c => condition <$> Transform.condition t fuel c
  | conjunction c => conjunction <$> Transform.conjunction t fuel c
  | clause c => clause <$> Transform.clause t fuel c
  | relation x => relation <$> Transform.relation t fuel x
  | expression e => expression <$> Transform.expression t fuel e
  | term x => term <$> Transform.term t fuel x
  | factor f => factor <$> Transform.factor t fuel f

/-- The fuel that visiting a fragment takes when nothing in it is replaced:
one unit for each level of nesting, one for a statement that takes no
level, and one for the innermost factor. -/
def fuel (f : Fragment) : Nat := f.nesting + 2

/-- The fragment as the transformer that changes nothing leaves it, and the
text printed for it. -/
def reprint (f : Fragment) : Option (Visited Unit Fragment) :=
  f.transform .identity f.fuel ()

end Fragment

end WorkflowScript
