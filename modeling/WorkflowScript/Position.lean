/-!
# Source positions

A position names a place in a source text three ways at once: the number
of bytes before it, its line, and its column on that line. `advance` is
the only way the rest of the library moves a position, so all three
counters stay consistent by construction: a position is the fold of
`advance` over the characters before it.
-/

namespace WorkflowScript

/-- A place in a source text: bytes before it, line and column from 1. -/
structure Position where
  offset : Nat
  line : Nat
  column : Nat
deriving Repr, DecidableEq

namespace Position

/-- The place before the first character. -/
def start : Position := ⟨0, 1, 1⟩

instance : Inhabited Position := ⟨start⟩

/-- The place behind the character `c` that stands at `p`. Only a line
feed starts a new line; every other character is one column wide. -/
def advance (p : Position) (c : Char) : Position :=
  if c = '\n' then ⟨p.offset + c.utf8Size, p.line + 1, 1⟩
  else ⟨p.offset + c.utf8Size, p.line, p.column + 1⟩

/-- The place behind the characters `cs` that start at `p`. -/
def advanceBy (p : Position) (cs : List Char) : Position :=
  cs.foldl advance p

/-- The form used in messages: `line:column`. -/
def display (p : Position) : String :=
  toString p.line ++ ":" ++ toString p.column

@[simp] theorem advanceBy_nil (p : Position) : p.advanceBy [] = p := rfl

@[simp] theorem advanceBy_cons (p : Position) (c : Char) (cs : List Char) :
    p.advanceBy (c :: cs) = (p.advance c).advanceBy cs := rfl

theorem advanceBy_append (p : Position) (cs ds : List Char) :
    p.advanceBy (cs ++ ds) = (p.advanceBy cs).advanceBy ds :=
  List.foldl_append

end Position

end WorkflowScript
