import WorkflowScript.Grammar.Counting

/-!
# What a call pulls

A call of a production on a new parser object, and the tokens that it pulls
from its source: a source can be made to write down each token that it gives
out, and nobody who pulls from it notices.
-/

namespace WorkflowScript

open TokenSource (next notices)

variable {σ : Type} [TokenSource σ]

/-- The source behind its next `n` tokens. -/
def TokenSource.behind : Nat → σ → σ
  | 0, s => s
  | n + 1, s => behind n (next s).2

/-- A source, and the tokens that have been pulled from it, in order. -/
structure Traced (σ : Type) where
  source : σ
  pulled : List Token

instance : TokenSource (Traced σ) where
  next s := ((next s.source).1, ⟨(next s.source).2, s.pulled ++ [(next s.source).1]⟩)
  notices := notices σ
  size s := TokenSource.size s.source
  size_next_le s := TokenSource.size_next_le s.source
  size_next_lt s := TokenSource.size_next_lt s.source

/-- A source from which nothing has been pulled. -/
def Traced.ofSource (s : σ) : Traced σ := ⟨s, []⟩

namespace Production

/-- The production called on a new parser object over the source. -/
def callOn (p : Production) (s : σ) : Outcome (Counted σ) Fragment :=
  Grammar.countingRules.production p (.fresh s)

/-- The tokens that the call pulls. -/
def pulledFrom (p : Production) (s : σ) : List Token :=
  (p.callOn (Traced.ofSource s)).cursor.source.source.pulled

end Production

end WorkflowScript
