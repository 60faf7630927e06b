import WorkflowScript.Event
import WorkflowScript.Token.Basic

/-!
# Token sources

The parser reads tokens from anything that can be asked for the next one.
`TokenSource` is that interface: `next` always answers, with `endOfInput`
when nothing is left, and `size` bounds the tokens still to come, which is
what lets loops over a source end. `notices` is what reading a token
reports to the log.

`TokenStream` is the source over a list of tokens that somebody else has
already read; `Scanner` (in `Token.Scanner`) reads them from text.
-/

namespace WorkflowScript

/-- Something tokens can be pulled from, one at a time. -/
class TokenSource (σ : Type) where
  /-- The next token and the source behind it. -/
  next : σ → Token × σ
  /-- The events that pulling this token gives rise to. -/
  notices : Token → List Event
  /-- A bound on the tokens before the end of the input. -/
  size : σ → Nat
  size_next_le : ∀ s, size (next s).2 ≤ size s
  size_next_lt : ∀ s, (next s).1.kind ≠ .endOfInput → size (next s).2 < size s

namespace TokenSource

variable {σ : Type} [TokenSource σ]

/-- The next `n` tokens, whatever they are. -/
def pull : Nat → σ → List Token
  | 0, _ => []
  | n + 1, s =>
    let (token, rest) := next s
    token :: pull n rest

/-- The next tokens up to and including the end of the input, but no more
than `limit` of them. -/
def pullToEnd : (limit : Nat) → σ → List Token
  | 0, _ => []
  | limit + 1, s =>
    let (token, rest) := next s
    if token.isEnd then [token] else token :: pullToEnd limit rest

/-- All tokens up to and including the end of the input. The limit is
never reached, since each token but the last makes the source smaller. -/
def drain (s : σ) : List Token := pullToEnd (size s + 1) s

end TokenSource

/-- A source over tokens that are already there. -/
structure TokenStream where
  tokens : List Token
  /-- The place of the last token given out, where the input will end. -/
  last : Position

namespace TokenStream

def ofList (tokens : List Token) : TokenStream := ⟨tokens, .start⟩

def next : TokenStream → Token × TokenStream
  | ⟨[], last⟩ => (.atEnd last, ⟨[], last⟩)
  | ⟨token :: rest, _⟩ => (token, ⟨rest, token.position⟩)

instance : TokenSource TokenStream where
  next := next
  notices _ := []
  size s := s.tokens.length
  size_next_le
    | ⟨[], _⟩ => Nat.le_refl _
    | ⟨_ :: _, _⟩ => Nat.le_succ _
  size_next_lt
    | ⟨[], _⟩, h => absurd rfl h
    | ⟨_ :: _, _⟩, _ => Nat.lt_succ_self _

end TokenStream

end WorkflowScript
