import WorkflowScript.Token.Scanner

/-!
# A reader of target expressions

What a target expression means is what the expression grammar of the target
language says. This module is that grammar, as far as the operators of
generated code go, loosest first:

```text
7   ||        left to right
6   &&        left to right
5   ==        left to right
4   <  >      left to right
3   +  -      left to right
2   *  /      left to right
1   !         prefix
0   calls; names, numbers, strings, true, false and brackets
```

It knows nothing of how target code is generated. `read` takes a text to its
operator tree, brackets included, or to `none` if some character does not fit.
-/

namespace WorkflowScript.Target

open WorkflowScript.Lexical

/-! ## Trees -/

inductive Operator where
  | or | and | equal | less | greater | plus | minus | times | divide
deriving Repr, DecidableEq

namespace Operator

def symbol : Operator → String
  | or => "||"
  | and => "&&"
  | equal => "=="
  | less => "<"
  | greater => ">"
  | plus => "+"
  | minus => "-"
  | times => "*"
  | divide => "/"

/-- The looser an operator binds, the larger is its rank. -/
def rank : Operator → Nat
  | times | divide => 2
  | plus | minus => 3
  | less | greater => 4
  | equal => 5
  | and => 6
  | or => 7

end Operator

/-- The rank of the loosest operator. -/
def loosest : Nat := 7

inductive Tree where
  | name (text : String)
  | number (text : String)
  | string (text : String)
  | bool (value : Bool)
  | call (callee : Tree) (args : List Tree)
  | not (operand : Tree)
  | binary (op : Operator) (left right : Tree)
  | paren (inner : Tree)

mutual

/-- The tree without brackets. -/
def Tree.erase : Tree → Tree
  | .name text => .name text
  | .number text => .number text
  | .string text => .string text
  | .bool value => .bool value
  | .call callee args => .call callee.erase (eraseAll args)
  | .not operand => .not operand.erase
  | .binary op left right => .binary op left.erase right.erase
  | .paren inner => inner.erase

def eraseAll : List Tree → List Tree
  | [] => []
  | t :: ts => t.erase :: eraseAll ts

end

/-! ## Tokens -/

inductive Token where
  | name (text : String)
  | number (text : String)
  | string (text : String)
  | bool (value : Bool)
  | operator (op : Operator)
  | not | leftParen | rightParen | comma
deriving Repr, DecidableEq

def Token.ofWord (word : String) : Token :=
  if word = "true" then .bool true else if word = "false" then .bool false else .name word

/-- The sign that a text starts with. -/
def splitSign : Char → List Char → Option (Token × List Char)
  | '|', '|' :: cs => some (.operator .or, cs)
  | '&', '&' :: cs => some (.operator .and, cs)
  | '=', '=' :: cs => some (.operator .equal, cs)
  | '<', cs => some (.operator .less, cs)
  | '>', cs => some (.operator .greater, cs)
  | '+', cs => some (.operator .plus, cs)
  | '-', cs => some (.operator .minus, cs)
  | '*', cs => some (.operator .times, cs)
  | '/', cs => some (.operator .divide, cs)
  | '!', cs => some (.not, cs)
  | '(', cs => some (.leftParen, cs)
  | ')', cs => some (.rightParen, cs)
  | ',', cs => some (.comma, cs)
  | _, _ => none

/-- The longest token that a text starts with, and the text behind it. -/
def splitToken (c : Char) (cs : List Char) : Option (Token × List Char) :=
  if isNameStart c then
    some (.ofWord (String.ofList (c :: cs.takeWhile isNamePart)), cs.dropWhile isNamePart)
  else if isDigit c then
    some (.number (String.ofList (c :: cs.takeWhile isDigit)), cs.dropWhile isDigit)
  else if c = '"' then
    (closeString false cs).map fun (body, rest) => (.string (String.ofList (c :: body)), rest)
  else splitSign c cs

theorem length_dropWhile_le (p : Char → Bool) (cs : List Char) :
    (cs.dropWhile p).length ≤ cs.length :=
  (List.dropWhile_sublist p).length_le

theorem length_splitToken_le {c : Char} {cs rest : List Char} {t : Token}
    (h : splitToken c cs = some (t, rest)) : rest.length ≤ cs.length := by
  unfold splitToken at h
  split at h
  · cases h
    exact length_dropWhile_le _ cs
  split at h
  · cases h
    exact length_dropWhile_le _ cs
  split at h
  · obtain ⟨⟨body, rest'⟩, hclose, he⟩ := Option.map_eq_some_iff.mp h
    cases he
    have := congrArg List.length (closeString_append hclose)
    rw [List.length_append] at this
    omega
  · unfold splitSign at h
    split at h <;> cases h
    all_goals simp

/-- The tokens of a text. -/
def lex : List Char → Option (List Token)
  | [] => some []
  | c :: cs =>
    match _h : splitToken c cs with
    | none => none
    | some (t, rest) => (lex rest).map (t :: ·)
termination_by cs => cs.length
decreasing_by exact Nat.lt_succ_of_le (length_splitToken_le _h)

/-! ## Readers

A reader takes a tree off the front of a list of tokens. Loops are bounded
by the number of tokens behind their first item, which they cannot exceed. -/

abbrev Reader (α : Type) := List Token → Option (α × List Token)

section Phrases

variable (inner : Reader Tree)

/-- Further arguments, up to the closing bracket. -/
def moreArguments : Nat → Reader (List Tree)
  | _, .rightParen :: ts => some ([], ts)
  | n + 1, .comma :: ts =>
    match inner ts with
    | none => none
    | some (arg, ts) => (moreArguments n ts).map fun (args, ts) => (arg :: args, ts)
  | _, _ => none

/-- The arguments of a call behind the opening bracket. -/
def arguments : Reader (List Tree)
  | .rightParen :: ts => some ([], ts)
  | ts =>
    match inner ts with
    | none => none
    | some (arg, ts) =>
      (moreArguments inner ts.length ts).map fun (args, ts) => (arg :: args, ts)

/-- Calls of what has been read so far. -/
def calls : Nat → Tree → Reader Tree
  | n + 1, callee, .leftParen :: ts =>
    match arguments inner ts with
    | none => none
    | some (args, ts) => calls n (.call callee args) ts
  | _, callee, ts => some (callee, ts)

def primary : Reader Tree
  | .name text :: ts => some (.name text, ts)
  | .number text :: ts => some (.number text, ts)
  | .string text :: ts => some (.string text, ts)
  | .bool value :: ts => some (.bool value, ts)
  | .leftParen :: ts =>
    match inner ts with
    | some (t, .rightParen :: ts) => some (.paren t, ts)
    | _ => none
  | _ => none

def operand : Reader Tree := fun ts =>
  match primary inner ts with
  | none => none
  | some (t, ts) => calls inner ts.length t ts

def unary : Reader Tree
  | .not :: ts => (unary ts).map fun (t, ts) => (.not t, ts)
  | ts => operand inner ts

end Phrases

/-- Operators of one rank and their right operands, behind a left operand. -/
def binaries (rank : Nat) (operand : Reader Tree) : Nat → Tree → Reader Tree
  | n + 1, left, .operator op :: ts =>
    if op.rank = rank then
      match operand ts with
      | none => none
      | some (right, ts) => binaries rank operand n (.binary op left right) ts
    else some (left, .operator op :: ts)
  | _, left, ts => some (left, ts)

/-- A phrase without operators looser than a rank. -/
def upTo (inner : Reader Tree) : (rank : Nat) → Reader Tree
  | 0 => operand inner
  | 1 => unary inner
  | rank + 2 => fun ts =>
    match upTo inner (rank + 1) ts with
    | none => none
    | some (left, ts) => binaries (rank + 2) (upTo inner (rank + 1)) ts.length left ts

/-- An expression with no more than a number of brackets inside one another. -/
def expression : (depth : Nat) → Reader Tree
  | 0 => fun _ => none
  | depth + 1 => upTo (expression depth) loosest

/-- The tree of a whole text. -/
def read (text : String) : Option Tree :=
  match lex text.toList with
  | none => none
  | some ts =>
    match expression ts.length ts with
    | some (t, []) => some t
    | _ => none

end WorkflowScript.Target
