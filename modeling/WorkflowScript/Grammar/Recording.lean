import WorkflowScript.Grammar.Counting

/-!
# Parsers that keep a record of their counter

The counter of a parser object is gone when a call returns, for by then every
level has been closed. To be able to speak about it, here are the same rules
over a source that writes down what the counter says each time a token is
pulled, and how high it has ever been. The record is written and never read,
so these parsers do what those with a counter do.
-/

namespace WorkflowScript

open TokenSource (next notices)

/-! ## The record -/

/-- A source with a counter, and what the counter has said so far. -/
structure Recorded (σ : Type) where
  source : Counted σ
  /-- The counter at each token that has been pulled. -/
  depths : List Nat
  /-- The highest number that the counter has ever been set to. -/
  peak : Nat

variable {σ : Type} [TokenSource σ]

instance : TokenSource (Recorded σ) where
  next s := ((next s.source).1, ⟨(next s.source).2, s.depths ++ [s.source.opened], s.peak⟩)
  notices := notices σ
  size s := TokenSource.size s.source
  size_next_le s := TokenSource.size_next_le s.source
  size_next_lt s := TokenSource.size_next_lt s.source

/-- A parser object on a source, with an empty record: no level is open. -/
def Cursor.recording (s : σ) : Cursor (Recorded σ) := .ofSource ⟨⟨s, 0⟩, [], 0⟩

namespace Cursor

variable {σ : Type}

/-- How many levels are open. -/
def opened (c : Cursor (Recorded σ)) : Nat := c.source.source.opened

def record (c : Cursor (Recorded σ)) : List Nat := c.source.depths

def peak (c : Cursor (Recorded σ)) : Nat := c.source.peak

/-- The cursor without its counter and record. -/
def plain (c : Cursor (Recorded σ)) : Cursor σ := ⟨c.source.source.source, c.current⟩

/-- The cursor with another number of open levels. -/
def reopened (opened : Nat) (c : Cursor (Recorded σ)) : Cursor (Recorded σ) :=
  ⟨⟨⟨c.source.source.source, opened⟩, c.record, max c.peak opened⟩, c.current⟩

end Cursor

namespace Grammar

open WorkflowScript.Parser

/-- Opens a level for a parser and closes it again, as `nested` does. -/
def recordedNested {α : Type} (p : Parser (Recorded σ) α) : Parser (Recorded σ) α := fun c =>
  if maxNesting ≤ c.opened then tooDeep c
  else
    let outcome := p (c.reopened (c.opened + 1))
    { outcome with cursor := outcome.cursor.reopened (outcome.cursor.opened - 1) }

/-- The rules that call themselves no more than a number of times inside one
another. -/
def recordingTurns : (turns : Nat) → Rules (Recorded σ)
  | 0 => ⟨tooDeep, tooDeep, tooDeep⟩
  | turns + 1 => .turn recordedNested (recordingTurns turns)

/-- The rules with a record of their counter. -/
def recordingRules : Rules (Recorded σ) := recordingTurns (maxNesting + 1)

end Grammar

end WorkflowScript
