import WorkflowScript.Session

/-!
# Parsers that count their open levels

The rules of the grammar say how many levels of nesting are free. A parser
object knows this the other way round: one counter of the levels that are
open travels with its cursor, goes up where a nested rule is entered and down
again where it is left, with success or without. Here the rules are put
together in that way.

`Rules` are the rules that lead back to themselves, and every production is
written over them. What the counter adds is `nested`, around the arguments of
a call, a group, and the three statements that have a body.
-/

namespace WorkflowScript

open TokenSource (next notices)

/-! ## The counter -/

/-- A source, and how many levels are open around its next token. -/
structure Counted (σ : Type) where
  source : σ
  opened : Nat

variable {σ : Type} [TokenSource σ]

instance : TokenSource (Counted σ) where
  next s := ((next s.source).1, ⟨(next s.source).2, s.opened⟩)
  notices := notices σ
  size s := TokenSource.size s.source
  size_next_le s := TokenSource.size_next_le s.source
  size_next_lt s := TokenSource.size_next_lt s.source

/-- A parser object on a source: no level is open. -/
def Cursor.fresh (s : σ) : Cursor (Counted σ) := .ofSource ⟨s, 0⟩

def Cursor.setOpened (opened : Nat) (c : Cursor (Counted σ)) : Cursor (Counted σ) :=
  ⟨⟨c.source.source, opened⟩, c.current⟩

namespace Grammar

open WorkflowScript.Parser

/-- Opens a level for a parser and closes it again however that ends. Gives up
if too many are open. -/
def nested {α : Type} (p : Parser (Counted σ) α) : Parser (Counted σ) α := fun c =>
  if maxNesting ≤ c.source.opened then tooDeep c
  else
    let outcome := p (c.setOpened (c.source.opened + 1))
    { outcome with cursor := outcome.cursor.setOpened (outcome.cursor.source.opened - 1) }

/-! ## Productions over the recursive rules -/

/-- The rules that lead back to themselves. -/
structure Rules (σ : Type) where
  factor : Parser σ Factor
  /-- The arguments of a call. -/
  arguments : Parser σ (List Expression)
  statement : Parser σ Statement

namespace Rules

variable (r : Rules σ)

def value : Parser σ Expression := assignedValueWith (expressionOf r.factor)

def assignment : Parser σ Assignment := assignmentWith r.value

def declaration : Parser σ Declaration := declarationFrom (expect .kwVar) r.value

def bareDeclaration : Parser σ Declaration := declarationFrom (accept .kwVar) r.value

def definition : Parser σ Definition := definitionWith r.statement (expressionOf r.factor)

def conditional : Parser σ Conditional := conditionalWith r.statement (conditionOf r.factor)

def loop : Parser σ Loop :=
  loopWith r.statement r.bareDeclaration (relationOf r.factor) r.assignment

def action : Parser σ Action := actionWith (blockOf r.statement)

def transition : Parser σ Transition := transitionWith (conditionOf r.factor)

def node : Parser σ Node := nodeWith (memberWith r.action r.transition)

def workflow : Parser σ Workflow := workflowWith (nodeOrEndWith r.node)

def production : Production → Parser σ Fragment
  | .workflow => .workflow <$> r.workflow
  | .node => .node <$> r.node
  | .action => .action <$> r.action
  | .transition => .transition <$> r.transition
  | .script => .script <$> repeatUntil (· = .endOfInput) r.statement
  | .statement => .statement <$> r.statement
  | .definition => .definition <$> r.definition
  | .call => .call <$> callWith r.arguments
  | .declaration => .declaration <$> r.declaration
  | .bareDeclaration => .declaration <$> r.bareDeclaration
  | .assignment => .assignment <$> r.assignment
  | .conditional => .conditional <$> r.conditional
  | .loop => .loop <$> r.loop
  | .condition => .condition <$> conditionOf r.factor
  | .conjunction => .conjunction <$> conjunctionOf r.factor
  | .clause => .clause <$> clauseOf r.factor
  | .relation => .relation <$> relationOf r.factor
  | .expression => .expression <$> expressionOf r.factor
  | .term => .term <$> termOf r.factor
  | .factor => .factor <$> r.factor

end Rules

/-- The rules over the rules for what is nested in them, with `nest` around
the nested parts. -/
def Rules.turn (nest : {α : Type} → Parser σ α → Parser σ α) (inner : Rules σ) : Rules σ :=
  let arguments := nest (argumentsOf inner.factor)
  let factor := factorOf arguments (nest (groupOf inner.factor))
  let value := assignedValueWith (expressionOf factor)
  { factor, arguments
    statement := statementWith (declarationFrom (expect .kwVar) value)
      (namedStatementWith arguments value) (nest inner.definition) (nest inner.conditional)
      (nest inner.loop) }

/-! ## Two ways to tie the rules together -/

/-- The rules with a number of free levels. -/
def rulesWithin (levels : Nat) : Rules σ := ⟨factor levels, arguments levels, statement levels⟩

/-- The rules with a counter, over the rules for what is nested in them. -/
def countingOver (inner : Rules (Counted σ)) : Rules (Counted σ) :=
  let arguments := nested (argumentsOf inner.factor)
  let factor := factorOf arguments (nested (groupOf inner.factor))
  let value := assignedValueWith (expressionOf factor)
  { factor, arguments
    statement := statementWith (declarationFrom (expect .kwVar) value)
      (namedStatementWith arguments value) (nested inner.definition) (nested inner.conditional)
      (nested inner.loop) }

/-- The rules that call themselves no more than a number of times inside one
another. -/
def countingTurns : (turns : Nat) → Rules (Counted σ)
  | 0 => ⟨tooDeep, tooDeep, tooDeep⟩
  | turns + 1 => countingOver (countingTurns turns)

/-- The rules with a counter. Each time that a rule calls itself a level is
opened, so the turns do not run out. -/
def countingRules : Rules (Counted σ) := countingTurns (maxNesting + 1)

end Grammar

/-! ## Sessions -/

/-- A step of a session, for a parser object. -/
def Step.counting : Step → Parser (Counted σ) (Option Fragment)
  | .production p => some <$> Grammar.countingRules.production p
  | .endOfInput => do
    let _ ← Parser.expect .endOfInput
    pure none

/-- Where a session on a parser object stops. -/
def stopOfCounting : List Step → Cursor (Counted σ) → Cursor (Counted σ)
  | [], c => c
  | step :: steps, c => stopOfCounting steps (step.counting c).cursor

end WorkflowScript
