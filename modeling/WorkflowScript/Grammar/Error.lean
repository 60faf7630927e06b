import WorkflowScript.Token.Basic

/-!
# Parse errors

A parse stops at the first token that cannot go on. The error is that
token and what the grammar would have allowed in its place; the wording
is `ParseError.message` and nothing else.
-/

namespace WorkflowScript

/-- How many groups, argument lists, definitions, conditionals and loops
may be open at once. -/
def maxNesting : Nat := 64

/-- What the grammar would have allowed in place of the offending token. -/
inductive Expected where
  | kind (k : TokenKind)
  /-- Any of these, in the order in which a message lists them. -/
  | oneOf (ks : List TokenKind)
  /-- The start of a factor. -/
  | factor
  /-- Anything that does not open one more level. -/
  | nesting
deriving Repr, DecidableEq

def Expected.describe : Expected → String
  | .kind k => k.describe
  | .oneOf ks => " or ".intercalate (ks.map TokenKind.describe)
  | .factor => "identifier, literal or '('"
  | .nesting => "at most " ++ toString maxNesting ++ " levels of nesting"

structure ParseError where
  /-- The offending token. -/
  token : Token
  expected : Expected
deriving Repr, DecidableEq

namespace ParseError

/-- The offending token as a message names it. A keyword or a punctuation
mark is named by its kind; the others show their text too. -/
def found (t : Token) : String :=
  if t.kind.showsText then t.kind.describe ++ " '" ++ t.text ++ "'" else t.kind.describe

def message (e : ParseError) : String :=
  e.token.position.display ++ ": unexpected " ++ found e.token ++ ", expected " ++
    e.expected.describe

end ParseError

end WorkflowScript
