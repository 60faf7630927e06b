import WorkflowScript.Grammar.Workflow

/-!
# Assembling workflows

A workflow can be put together piece by piece: nodes at its end, actions
and transitions at the end of a node that is named by its index. Scripts
and guards are given as text and parsed first, so a text that does not
parse is reported even if there is no such node. A step that fails leaves
nothing behind.
-/

namespace WorkflowScript

inductive AssemblyError where
  | parse (error : ParseError)
  | noSuchNode
deriving Repr, DecidableEq

namespace Workflow

/-- A workflow without nodes. -/
def new (name : String) (position : Position) : Workflow := ⟨name, [], position⟩

def addNode (w : Workflow) (n : Node) : Workflow := { w with nodes := w.nodes ++ [n] }

/-- The workflow with one node changed. -/
def modifyNode? (w : Workflow) (index : Nat) (f : Node → Node) : Option Workflow :=
  if index < w.nodes.length then some { w with nodes := w.nodes.modify index f } else none

def addAction? (w : Workflow) (index : Nat) (a : Action) : Option Workflow :=
  w.modifyNode? index fun n => { n with actions := n.actions ++ [a] }

def addTransition? (w : Workflow) (index : Nat) (t : Transition) : Option Workflow :=
  w.modifyNode? index fun n => { n with transitions := n.transitions ++ [t] }

end Workflow

namespace Assembly

/-- The answer of a step that needs a node. -/
def orNoSuchNode : Option Workflow → Except AssemblyError Workflow
  | some w => .ok w
  | none => .error .noSuchNode

/-- The condition that a text holds, if there is a text. -/
def readCondition? : Option String → Except AssemblyError (Option Condition)
  | none => .ok none
  | some text =>
    match (parseCondition text).result with
    | .ok c => .ok (some c)
    | .error e => .error (.parse e)

/-- The statements that a text holds. -/
def readScript (text : String) : Except AssemblyError (List Statement) :=
  match (parseScript text).result with
  | .ok statements => .ok statements
  | .error e => .error (.parse e)

/-- Adds an action whose script is given as text. -/
def addAction (w : Workflow) (index : Nat) (phase : Phase) (script : String)
    (position : Position) : Except AssemblyError Workflow := do
  let statements ← readScript script
  orNoSuchNode (w.addAction? index ⟨phase, statements, position⟩)

/-- Adds a transition whose guard is given as text, twice perhaps: a
`condition` takes the place of the first `guard`. -/
def addTransition (w : Workflow) (index : Nat) (target : String)
    (guard condition : Option String) (position : Position) :
    Except AssemblyError Workflow := do
  let first ← readCondition? guard
  let second ← readCondition? condition
  orNoSuchNode (w.addTransition? index ⟨target, second <|> first, position⟩)

end Assembly

end WorkflowScript
