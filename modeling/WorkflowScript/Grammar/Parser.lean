import WorkflowScript.Grammar.Error
import WorkflowScript.Token.Scanner

/-!
# Parsers over a token source

A `Cursor` is a source with one token of lookahead. A `Parser` reads from
a cursor and answers with an `Outcome`: a value or an error, the events on
the way, and the cursor it leaves, after a failure too, so that another
parser can go on from there.

Parsers are built from few primitives: look at the kind of the lookahead
(`peek`), consume it (`advance`, `expect`), give up at it (`unexpected`),
report (`notify`), and two loops, `chain` and `repeatUntil`. No primitive
shows a parser more than the kind of the lookahead before consuming it.
-/

namespace WorkflowScript

open TokenSource (next notices)

/-! ## Cursors -/

/-- A token source and the one token already pulled from it. -/
structure Cursor (σ : Type) where
  source : σ
  /-- The lookahead. -/
  current : Token

namespace Cursor

variable {σ : Type} [TokenSource σ]

/-- The cursor on the first token of a source. -/
def ofSource (s : σ) : Cursor σ :=
  let (token, rest) := next s
  ⟨rest, token⟩

/-- A bound on the tokens a parser can consume before the end of input. -/
def size (c : Cursor σ) : Nat :=
  TokenSource.size c.source + if c.current.isEnd then 0 else 1

/-- What is left when the lookahead is consumed. -/
def advance (c : Cursor σ) : Cursor σ := ofSource c.source

/-- Consuming a token makes a cursor smaller. -/
theorem size_advance_lt (c : Cursor σ) (h : c.current.isEnd = false) :
    c.advance.size < c.size := by
  have hle := TokenSource.size_next_le c.source
  have hlt := TokenSource.size_next_lt c.source
  simp only [advance, ofSource, size, h]
  by_cases he : (next c.source).1.kind = .endOfInput
  · simp [Token.isEnd, he]
    omega
  · have := hlt he
    simp [Token.isEnd, he]
    omega

end Cursor

/-! ## Parsers -/

/-- The result of running a parser. -/
structure Outcome (σ α : Type) where
  result : Except ParseError α
  /-- What was reported, in order. -/
  events : List Event
  /-- Where the parser stopped. -/
  cursor : Cursor σ

/-- The outcome with `events` reported before its own. -/
def Outcome.after {σ α : Type} (events : List Event) (o : Outcome σ α) : Outcome σ α :=
  { o with events := events ++ o.events }

def Parser (σ α : Type) : Type := Cursor σ → Outcome σ α

namespace Parser

variable {σ α β ω : Type}

protected def pure (a : α) : Parser σ α := fun c => ⟨.ok a, [], c⟩

protected def bind (p : Parser σ α) (f : α → Parser σ β) : Parser σ β := fun c =>
  match p c with
  | ⟨.ok a, events, c'⟩ => (f a c').after events
  | ⟨.error e, events, c'⟩ => ⟨.error e, events, c'⟩

instance : Monad (Parser σ) where
  pure := Parser.pure
  bind := Parser.bind

/-- The kind of the lookahead. -/
def peek : Parser σ TokenKind := fun c => ⟨.ok c.current.kind, [], c⟩

/-- The place of the lookahead. -/
def place : Parser σ Position := fun c => ⟨.ok c.current.position, [], c⟩

/-- Gives up at the lookahead. -/
def unexpected (expected : Expected) : Parser σ α := fun c =>
  ⟨.error ⟨c.current, expected⟩, [], c⟩

/-- Reports an event. -/
def notify (event : Event) : Parser σ Unit := fun c => ⟨.ok (), [event], c⟩

variable [TokenSource σ]

/-- Consumes the lookahead, pulling the next token from the source. -/
def advance : Parser σ Token := fun c =>
  ⟨.ok c.current, notices σ c.advance.current, c.advance⟩

/-- Consumes a token of one kind. -/
def expect (k : TokenKind) : Parser σ Token := do
  if (← peek) = k then advance else unexpected (.kind k)

/-- Consumes a token if it is of the given kind, and says whether it was. -/
def accept (k : TokenKind) : Parser σ Bool := do
  if (← peek) = k then
    let _ ← advance
    pure true
  else
    pure false

/-! ### Loops

Each turn of a loop consumes at least one token, so a loop that starts at
a cursor of size `n` makes at most `n` full turns. The loops count down
from `n + 1` and never reach zero. -/

def chainTurns (op? : TokenKind → Option ω) (item : Parser σ α) :
    Nat → Parser σ (List (ω × α))
  | 0 => pure []
  | turns + 1 => do
    match op? (← peek) with
    | none => pure []
    | some op =>
      let _ ← advance
      let operand ← item
      let rest ← chainTurns op? item turns
      pure ((op, operand) :: rest)

/-- As many items as there are, each behind an operator. -/
def chain (op? : TokenKind → Option ω) (item : Parser σ α) : Parser σ (List (ω × α)) :=
  fun c => chainTurns op? item (c.size + 1) c

def repeatTurns (stop : TokenKind → Bool) (item : Parser σ α) : Nat → Parser σ (List α)
  | 0 => pure []
  | turns + 1 => do
    if stop (← peek) then pure []
    else
      let x ← item
      let rest ← repeatTurns stop item turns
      pure (x :: rest)

/-- Items until the lookahead is of a kind that ends them, which is not
consumed. -/
def repeatUntil (stop : TokenKind → Bool) (item : Parser σ α) : Parser σ (List α) :=
  fun c => repeatTurns stop item (c.size + 1) c

/-- Items behind further tokens of one kind. -/
def chainOn (k : TokenKind) (item : Parser σ α) : Parser σ (List α) := do
  let items ← chain (fun found => if found = k then some () else none) item
  pure (items.map Prod.snd)

/-- Items in round brackets with commas between them, perhaps none. -/
def bracketed (item : Parser σ α) : Parser σ (List α) := do
  let _ ← expect .leftParen
  if ← accept .rightParen then pure []
  else
    let first ← item
    let rest ← chainOn .comma item
    let _ ← expect .rightParen
    pure (first :: rest)

/-- A parser that must reach the end of the input. -/
def toEnd (p : Parser σ α) : Parser σ α := do
  let a ← p
  let _ ← expect .endOfInput
  pure a

/-! ### Running -/

/-- Runs a parser on a fresh source. -/
def run (p : Parser σ α) (s : σ) : Outcome σ α :=
  let c := Cursor.ofSource s
  (p c).after (notices σ c.current)

end Parser

end WorkflowScript
