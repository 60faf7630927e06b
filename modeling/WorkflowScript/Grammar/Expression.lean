import WorkflowScript.Grammar.Parser

/-!
# The grammar of expressions

```text
condition   := conjunction ('or' conjunction)*
conjunction := clause ('and' clause)*
clause      := ['not'] relation
relation    := expression [('>' | '<' | '=') expression]
expression  := term (('+' | '-') term)*
term        := factor (('*' | '/') factor)*
factor      := IDENT [arguments] | INT | STRING | 'true' | 'false' | '(' condition ')'
arguments   := '(' [expression (',' expression)*] ')'
```

Only groups and argument lists lead back from factors to the looser
layers, and each takes one level of nesting. So the layers are written
once over the parser of their factors, and `factor` is recursive on the
levels that are still free.
-/

namespace WorkflowScript.Grammar

open WorkflowScript.Parser

variable {σ : Type} [TokenSource σ]

/-! ## The operators a token stands for -/

def addOp? : TokenKind → Option AddOp
  | .plus => some .plus
  | .minus => some .minus
  | _ => none

def mulOp? : TokenKind → Option MulOp
  | .star => some .times
  | .slash => some .divide
  | _ => none

def relOp? : TokenKind → Option RelOp
  | .greater => some .greater
  | .less => some .less
  | .equals => some .equal
  | _ => none

/-! ## Layers over a parser of factors -/

section Layers

variable (factor : Parser σ Factor)

def termOf : Parser σ Term := do
  let first ← factor
  let rest ← chain mulOp? factor
  pure ⟨first, rest⟩

def expressionOf : Parser σ Expression := do
  let first ← termOf factor
  let rest ← chain addOp? (termOf factor)
  pure ⟨first, rest⟩

def relationOf : Parser σ Relation := do
  let left ← expressionOf factor
  match relOp? (← peek) with
  | none => pure ⟨left, none⟩
  | some op =>
    let _ ← advance
    let right ← expressionOf factor
    pure ⟨left, some (op, right)⟩

def clauseOf : Parser σ Clause := do
  let negated ← accept .kwNot
  let relation ← relationOf factor
  pure ⟨negated, relation⟩

def conjunctionOf : Parser σ Conjunction := do
  let first ← clauseOf factor
  let rest ← chainOn .kwAnd (clauseOf factor)
  pure ⟨first, rest⟩

def conditionOf : Parser σ Condition := do
  let first ← conjunctionOf factor
  let rest ← chainOn .kwOr (conjunctionOf factor)
  pure ⟨first, rest⟩

/-- The arguments of a call, brackets included. -/
def argumentsOf : Parser σ (List Expression) := bracketed (expressionOf factor)

/-- A condition in brackets. -/
def groupOf : Parser σ Condition := do
  let _ ← expect .leftParen
  let inner ← conditionOf factor
  let _ ← expect .rightParen
  pure inner

end Layers

/-- A call whose name has been consumed already. -/
def callTail (arguments : Parser σ (List Expression)) (name : Token) : Parser σ Call := do
  let args ← arguments
  pure ⟨name.text, args, name.position⟩

/-- A factor, given what may stand in its brackets. A name is a call if
the token behind it opens a bracket. -/
def factorOf (arguments : Parser σ (List Expression)) (group : Parser σ Condition) :
    Parser σ Factor := do
  match ← peek with
  | .identifier =>
    let name ← advance
    if (← peek) = .leftParen then
      let call ← callTail arguments name
      pure (.call call)
    else pure (.variable name.text name.position)
  | .integer =>
    let token ← advance
    pure (.integer token.text)
  | .string =>
    let token ← advance
    pure (.string token.text)
  | .kwTrue =>
    let _ ← advance
    pure (.bool true)
  | .kwFalse =>
    let _ ← advance
    pure (.bool false)
  | .leftParen =>
    let inner ← group
    pure (.group inner)
  | _ => unexpected .factor

/-! ## Nesting -/

/-- Gives up because no level is free. -/
def tooDeep {α : Type} : Parser σ α := unexpected .nesting

/-- A factor with `levels` free levels below it. -/
def factor : (levels : Nat) → Parser σ Factor
  | 0 => fun c => factorOf tooDeep tooDeep c
  | levels + 1 => fun c =>
    factorOf (argumentsOf (factor levels)) (groupOf (factor levels)) c

def term (levels : Nat) : Parser σ Term := termOf (factor levels)

def expression (levels : Nat) : Parser σ Expression := expressionOf (factor levels)

def relation (levels : Nat) : Parser σ Relation := relationOf (factor levels)

def clause (levels : Nat) : Parser σ Clause := clauseOf (factor levels)

def conjunction (levels : Nat) : Parser σ Conjunction := conjunctionOf (factor levels)

def condition (levels : Nat) : Parser σ Condition := conditionOf (factor levels)

/-- The arguments of a call, which take one level. -/
def arguments : (levels : Nat) → Parser σ (List Expression)
  | 0 => tooDeep
  | levels + 1 => argumentsOf (factor levels)

def callWith (arguments : Parser σ (List Expression)) : Parser σ Call := do
  let name ← expect .identifier
  callTail arguments name

def call (levels : Nat) : Parser σ Call := callWith (arguments levels)

end WorkflowScript.Grammar
