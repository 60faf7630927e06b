import WorkflowScript.Grammar.Statement

/-!
# The grammar of workflows

```text
workflow   := 'workflow' IDENT node* 'end'
node       := ('node' | 'state' | 'join') IDENT (action | transition)* 'end'
action     := ('enter' | 'leave') statement* 'end'
transition := 'transition' 'to' IDENT ['if' condition]
```

None of these takes a level of nesting. A node may mix its actions and
transitions; the tree keeps each kind in source order.
-/

namespace WorkflowScript

/-- The kind of node that a keyword announces. -/
def NodeKind.ofKeyword? : TokenKind → Option NodeKind
  | .kwNode => some .node
  | .kwState => some .state
  | .kwJoin => some .join
  | _ => none

/-- The phase that a keyword announces. -/
def Phase.ofKeyword? : TokenKind → Option Phase
  | .kwEnter => some .enter
  | .kwLeave => some .leave
  | _ => none

namespace Grammar

open WorkflowScript.Parser

variable {σ : Type} [TokenSource σ]

/-- A keyword, and what it stands for. -/
structure Lead (α : Type) where
  value : α
  token : Token

/-- Something announced by a keyword that `read?` knows; `expected` names
those keywords. -/
def announced {α : Type} (read? : TokenKind → Option α) (expected : List TokenKind) :
    Parser σ (Lead α) := do
  match read? (← peek) with
  | some value =>
    let token ← advance
    pure ⟨value, token⟩
  | none => unexpected (.oneOf expected)

def actionWith (block : Parser σ (List Statement)) : Parser σ Action := do
  let lead ← announced Phase.ofKeyword? [.kwEnter, .kwLeave]
  let statements ← block
  pure ⟨lead.value, statements, lead.token.position⟩

def transitionWith (condition : Parser σ Condition) : Parser σ Transition := do
  let start ← expect .kwTransition
  let _ ← expect .kwTo
  let target ← expect .identifier
  let guard ← if ← accept .kwIf then some <$> condition else pure none
  pure ⟨target.text, guard, start.position⟩

/-- What stands in the body of a node. -/
inductive Member where
  | action (a : Action)
  | transition (t : Transition)

def Member.action? : Member → Option Action
  | .action a => some a
  | .transition _ => none

def Member.transition? : Member → Option Transition
  | .action _ => none
  | .transition t => some t

def memberWith (action : Parser σ Action) (transition : Parser σ Transition) :
    Parser σ Member := do
  match ← peek with
  | .kwEnter | .kwLeave => Member.action <$> action
  | .kwTransition => Member.transition <$> transition
  | _ => unexpected (.oneOf [.kwEnter, .kwLeave, .kwTransition, .kwEnd])

def nodeWith (member : Parser σ Member) : Parser σ Node := do
  let lead ← announced NodeKind.ofKeyword? [.kwNode, .kwState, .kwJoin]
  let name ← expect .identifier
  let members ← repeatUntil (· = .kwEnd) member
  let _ ← expect .kwEnd
  let actions := members.filterMap Member.action?
  let transitions := members.filterMap Member.transition?
  notify (.parsedNode name.text lead.value actions.length transitions.length)
  pure ⟨lead.value, name.text, actions, transitions, lead.token.position⟩

/-- A node in the body of a workflow, which `end` might close instead. -/
def nodeOrEndWith (node : Parser σ Node) : Parser σ Node := do
  match NodeKind.ofKeyword? (← peek) with
  | some _ => node
  | none => unexpected (.oneOf [.kwNode, .kwState, .kwJoin, .kwEnd])

def workflowWith (nodeOrEnd : Parser σ Node) : Parser σ Workflow := do
  let start ← expect .kwWorkflow
  let name ← expect .identifier
  let nodes ← repeatUntil (· = .kwEnd) nodeOrEnd
  let _ ← expect .kwEnd
  notify (.parsedWorkflow name.text nodes.length)
  pure ⟨name.text, nodes, start.position⟩

def action (levels : Nat) : Parser σ Action := actionWith (block levels)

def transition (levels : Nat) : Parser σ Transition := transitionWith (condition levels)

def member (levels : Nat) : Parser σ Member := memberWith (action levels) (transition levels)

def node (levels : Nat) : Parser σ Node := nodeWith (member levels)

def nodeOrEnd (levels : Nat) : Parser σ Node := nodeOrEndWith (node levels)

def workflow (levels : Nat) : Parser σ Workflow := workflowWith (nodeOrEnd levels)

end Grammar

/-! ## Whole texts -/

open WorkflowScript.Parser

/-- A parser for conditions that reach the end of the input, and says so. -/
def Grammar.conditionToEnd {σ : Type} [TokenSource σ] : Parser σ Condition := do
  let condition ← toEnd (Grammar.condition maxNesting)
  notify (.parsedCondition (condition.rest.length + 1))
  pure condition

/-- Parses a text that holds exactly one workflow. -/
def parseWorkflow (text : String) : Outcome Scanner Workflow :=
  (toEnd (Grammar.workflow maxNesting)).run (Scanner.ofText text)

/-- Parses a text that holds exactly one condition. -/
def parseCondition (text : String) : Outcome Scanner Condition :=
  Grammar.conditionToEnd.run (Scanner.ofText text)

/-- Parses a text that holds nothing but statements. -/
def parseScript (text : String) : Outcome Scanner (List Statement) :=
  (Grammar.script maxNesting).run (Scanner.ofText text)

end WorkflowScript
