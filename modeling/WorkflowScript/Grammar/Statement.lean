import WorkflowScript.Grammar.Expression

/-!
# The grammar of statements

```text
statement   := definition | declaration | conditional | loop
             | IDENT arguments | IDENT '=' expression
definition  := 'def' IDENT '(' [IDENT (',' IDENT)*] ')' statement*
               ['return' expression] 'end'
declaration := ['var'] IDENT '=' expression
assignment  := IDENT '=' expression
conditional := 'if' condition 'then' statement* 'end'
loop        := 'for' declaration ';' relation ';' assignment 'do' statement* 'end'
```

The `var` of a declaration may be missing only in the head of a loop.
Definitions, conditionals and loops that stand as statements take one
level of nesting each, heads included; called on their own they take none.
A rule is written over the parsers of its parts (`…With`), and the rules as
they are used say how many levels each of the parts has.
-/

namespace WorkflowScript.Grammar

open WorkflowScript.Parser

variable {σ : Type} [TokenSource σ]

/-! ## Statements without a body -/

/-- The part of an assignment behind its name. -/
def assignedValueWith (expression : Parser σ Expression) : Parser σ Expression := do
  let _ ← expect .equals
  expression

def assignmentWith (value : Parser σ Expression) : Parser σ Assignment := do
  let name ← expect .identifier
  let value ← value
  pure ⟨name.text, value, name.position⟩

/-- A declaration whose keyword is read by `keyword`. -/
def declarationFrom {α : Type} (keyword : Parser σ α) (value : Parser σ Expression) :
    Parser σ Declaration := do
  let position ← place
  let _ ← keyword
  let name ← expect .identifier
  let value ← value
  pure ⟨name.text, value, position⟩

def assignedValue (levels : Nat) : Parser σ Expression := assignedValueWith (expression levels)

def assignment (levels : Nat) : Parser σ Assignment := assignmentWith (assignedValue levels)

def declarationWith {α : Type} (keyword : Parser σ α) (levels : Nat) : Parser σ Declaration :=
  declarationFrom keyword (assignedValue levels)

def declaration (levels : Nat) : Parser σ Declaration :=
  declarationWith (expect .kwVar) levels

/-- A declaration as it may stand in the head of a loop. -/
def bareDeclaration (levels : Nat) : Parser σ Declaration :=
  declarationWith (accept .kwVar) levels

/-! ## Bodies -/

section Bodies

variable (statement : Parser σ Statement)

/-- Statements up to a token of one of the kinds in `closers`. The input
must not end before. -/
def statementsUntil (closers : List TokenKind) : Parser σ (List Statement) :=
  repeatUntil (closers.contains ·) do
    if (← peek) = .endOfInput then unexpected (.kind .kwEnd) else statement

/-- Statements up to and including `end`. -/
def blockOf : Parser σ (List Statement) := do
  let statements ← statementsUntil statement [.kwEnd]
  let _ ← expect .kwEnd
  pure statements

/-- The name of a parameter. -/
def parameter : Parser σ String := do
  let name ← expect .identifier
  pure name.text

def definitionWith (returned : Parser σ Expression) : Parser σ Definition := do
  let start ← expect .kwDef
  let name ← expect .identifier
  let params ← bracketed parameter
  let body ← statementsUntil statement [.kwEnd, .kwReturn]
  let returns ←
    if ← accept .kwReturn then some <$> returned else pure none
  let _ ← expect .kwEnd
  pure ⟨name.text, params, body, returns, start.position⟩

def conditionalWith (condition : Parser σ Condition) : Parser σ Conditional := do
  let start ← expect .kwIf
  let condition ← condition
  let _ ← expect .kwThen
  let body ← blockOf statement
  pure ⟨condition, body, start.position⟩

def loopWith (init : Parser σ Declaration) (condition : Parser σ Relation)
    (step : Parser σ Assignment) : Parser σ Loop := do
  let start ← expect .kwFor
  let init ← init
  let _ ← expect .semicolon
  let condition ← condition
  let _ ← expect .semicolon
  let step ← step
  let _ ← expect .kwDo
  let body ← blockOf statement
  pure ⟨init, condition, step, body, start.position⟩

def definitionOf (levels : Nat) : Parser σ Definition :=
  definitionWith statement (expression levels)

def conditionalOf (levels : Nat) : Parser σ Conditional :=
  conditionalWith statement (condition levels)

def loopOf (levels : Nat) : Parser σ Loop :=
  loopWith statement (bareDeclaration levels) (relation levels) (assignment levels)

end Bodies

/-! ## Statements -/

/-- A statement that starts with a name: the token behind the name tells a
call from an assignment. -/
def namedStatementWith (arguments : Parser σ (List Expression)) (value : Parser σ Expression) :
    Parser σ Statement := do
  let name ← expect .identifier
  match ← peek with
  | .leftParen =>
    let call ← callTail arguments name
    pure (.call call)
  | .equals =>
    let value ← value
    pure (.assignment ⟨name.text, value, name.position⟩)
  | _ => unexpected (.oneOf [.leftParen, .equals])

/-- A statement, given its forms. -/
def statementWith (declaration : Parser σ Declaration) (named : Parser σ Statement)
    (definition : Parser σ Definition) (conditional : Parser σ Conditional)
    (loop : Parser σ Loop) : Parser σ Statement := do
  match ← peek with
  | .kwDef => Statement.definition <$> definition
  | .kwVar => Statement.declaration <$> declaration
  | .kwIf => Statement.conditional <$> conditional
  | .kwFor => Statement.loop <$> loop
  | .identifier => named
  | _ => unexpected (.oneOf [.kwDef, .kwVar, .kwIf, .kwFor, .identifier])

def namedStatement (levels : Nat) : Parser σ Statement :=
  namedStatementWith (arguments levels) (assignedValue levels)

/-- A statement, given what may be nested in it. -/
def statementOf (levels : Nat) (definition : Parser σ Definition)
    (conditional : Parser σ Conditional) (loop : Parser σ Loop) : Parser σ Statement :=
  statementWith (declaration levels) (namedStatement levels) definition conditional loop

/-- A statement with `levels` free levels below it. -/
def statement : (levels : Nat) → Parser σ Statement
  | 0 => fun c => statementOf 0 tooDeep tooDeep tooDeep c
  | levels + 1 => fun c =>
    statementOf (levels + 1) (definitionOf (statement levels) levels)
      (conditionalOf (statement levels) levels) (loopOf (statement levels) levels) c

def definition (levels : Nat) : Parser σ Definition := definitionOf (statement levels) levels

def conditional (levels : Nat) : Parser σ Conditional := conditionalOf (statement levels) levels

def loop (levels : Nat) : Parser σ Loop := loopOf (statement levels) levels

def block (levels : Nat) : Parser σ (List Statement) := blockOf (statement levels)

/-- Statements up to the end of the input. -/
def script (levels : Nat) : Parser σ (List Statement) :=
  repeatUntil (· = .endOfInput) (statement levels)

end WorkflowScript.Grammar
