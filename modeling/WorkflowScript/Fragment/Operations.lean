import WorkflowScript.Fragment.Basic
import WorkflowScript.Target.Workflow
import WorkflowScript.Workflow.Equality
import WorkflowScript.Workflow.Positions
import WorkflowScript.Workflow.Print

/-!
# Operations on any fragment

Printing, target code and comparison, by the form of the fragment.
-/

namespace WorkflowScript

deriving instance DecidableEq for Fragment

namespace Fragment

/-- The normal written form. The statements of a script are each on a line
of their own. -/
def print : Fragment → String
  | workflow w => w.print
  | node n => n.print
  | action a => a.print
  | transition t => t.print
  | script statements => printScript statements
  | statement s => s.print
  | definition d => d.print
  | call c => c.print
  | declaration d => d.print
  | assignment a => a.print
  | conditional c => c.print
  | loop l => l.print
  | condition c => c.print
  | conjunction c => c.print
  | clause c => c.print
  | relation r => r.print
  | expression e => e.print
  | term t => t.print
  | factor f => f.print

/-- The target code. A transition stands for its guard, a node for its
listing, and a declaration or an assignment has no semicolon. -/
def generate (names : Resolver) : Fragment → String
  | workflow w => w.render names
  | node n => String.join ((n.listing names).map (· ++ "\n"))
  | action a => a.generate names
  | transition t => t.generateGuard names
  | script statements => generateScript names statements
  | statement s => s.generate names
  | definition d => d.generate names
  | call c => c.generate names
  | declaration d => d.generate names
  | assignment a => a.generate names
  | conditional c => c.generate names
  | loop l => l.generate names
  | condition c => c.generate names
  | conjunction c => c.generate names
  | clause c => c.generate names
  | relation r => r.generate names
  | expression e => e.generate names
  | term t => t.generate names
  | factor f => f.generate names

def mapPositions (f : Position → Position) : Fragment → Fragment
  | workflow w => workflow (w.mapPositions f)
  | node n => node (n.mapPositions f)
  | action a => action (a.mapPositions f)
  | transition t => transition (t.mapPositions f)
  | script statements => script (mapStatements f statements)
  | statement s => statement (s.mapPositions f)
  | definition d => definition (d.mapPositions f)
  | call c => call (c.mapPositions f)
  | declaration d => declaration (d.mapPositions f)
  | assignment a => assignment (a.mapPositions f)
  | conditional c => conditional (c.mapPositions f)
  | loop l => loop (l.mapPositions f)
  | condition c => condition (c.mapPositions f)
  | conjunction c => conjunction (c.mapPositions f)
  | clause c => clause (c.mapPositions f)
  | relation r => relation (r.mapPositions f)
  | expression e => expression (e.mapPositions f)
  | term t => term (t.mapPositions f)
  | Fragment.factor x => Fragment.factor (x.mapPositions f)

def positions : Fragment → List Position
  | workflow w => w.positions
  | node n => n.positions
  | action a => a.positions
  | transition t => t.positions
  | script statements => positionsOfStatements statements
  | statement s => s.positions
  | definition d => d.positions
  | call c => c.positions
  | declaration d => d.positions
  | assignment a => a.positions
  | conditional c => c.positions
  | loop l => l.positions
  | condition c => c.positions
  | conjunction c => c.positions
  | clause c => c.positions
  | relation r => r.positions
  | expression e => e.positions
  | term t => t.positions
  | Fragment.factor x => x.positions

/-- The fragment with every position erased. -/
def erasePositions (f : Fragment) : Fragment := f.mapPositions fun _ => .start

/-- Whether two fragments are the same up to positions. -/
def sameUpToPositions (f g : Fragment) : Bool := f.erasePositions == g.erasePositions

end Fragment

end WorkflowScript
