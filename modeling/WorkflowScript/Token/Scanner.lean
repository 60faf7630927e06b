import WorkflowScript.Text.Blank
import WorkflowScript.Token.Source

/-!
# Reading tokens from text

The lexical grammar, as functions that cut the front off a list of
characters and return both pieces, so that nothing of a text is ever lost:

* `splitTrivia` cuts off blanks and comments (`//` up to the line feed);
* `splitLexeme` cuts off one token by longest match;
* `closeString` cuts off the rest of a string behind its opening quote.

`Scanner.next` strings them together and moves the position over exactly
the characters it has cut off.
-/

namespace WorkflowScript

namespace Lexical

/-! ## Character classes -/

def isDigit (c : Char) : Bool := '0' ≤ c && c ≤ '9'

def isLetter (c : Char) : Bool :=
  ('a' ≤ c && c ≤ 'z') || ('A' ≤ c && c ≤ 'Z')

/-- Characters a name may start with. -/
def isNameStart (c : Char) : Bool := isLetter c || c = '_'

/-- Characters a name may go on with. -/
def isNamePart (c : Char) : Bool := isLetter c || isDigit c || c = '_'

/-! ## Trivia -/

/-- Whether the next characters belong to a comment. -/
inductive Trivia where
  | blank | comment
deriving Repr, DecidableEq

/-- The leading blanks and comments of a text, and the text behind them.
A comment runs up to a line feed, which is a blank again. -/
def splitTrivia : Trivia → List Char → List Char × List Char
  | _, [] => ([], [])
  | .comment, c :: cs =>
    let (skipped, rest) := splitTrivia (if c = '\n' then .blank else .comment) cs
    (c :: skipped, rest)
  | .blank, c :: cs =>
    if Text.isBlank c then
      let (skipped, rest) := splitTrivia .blank cs
      (c :: skipped, rest)
    else if c = '/' ∧ cs.head? = some '/' then
      let (skipped, rest) := splitTrivia .comment cs
      (c :: skipped, rest)
    else ([], c :: cs)

/-! ## Lexemes -/

/-- The characters up to and including the quote that closes a string, and
the text behind it; `none` if no quote does. A backslash takes away the
meaning of the one character behind it. -/
def closeString : (escaped : Bool) → List Char → Option (List Char × List Char)
  | _, [] => none
  | true, c :: cs =>
    (closeString false cs).map fun (body, rest) => (c :: body, rest)
  | false, c :: cs =>
    if c = '"' then some ([c], cs)
    else (closeString (c = '\\') cs).map fun (body, rest) => (c :: body, rest)

/-- A token cut off the front of a text, and the text behind it. -/
structure Lexeme where
  kind : TokenKind
  text : List Char
  rest : List Char
deriving Repr, DecidableEq

/-- The token that a text starts with, if its first character `c` is no
trivia. A string that nothing closes is one invalid token up to the end. -/
def splitLexeme (c : Char) (cs : List Char) : Lexeme :=
  if isNameStart c then
    let word := c :: cs.takeWhile isNamePart
    ⟨.ofWord (String.ofList word), word, cs.dropWhile isNamePart⟩
  else if isDigit c then
    ⟨.integer, c :: cs.takeWhile isDigit, cs.dropWhile isDigit⟩
  else if c = '"' then
    match closeString false cs with
    | some (body, rest) => ⟨.string, c :: body, rest⟩
    | none => ⟨.invalid, c :: cs, []⟩
  else ⟨(TokenKind.ofChar? c).getD .invalid, [c], cs⟩

/-! ## Nothing is lost -/

theorem splitTrivia_append (mode : Trivia) (cs : List Char) :
    (splitTrivia mode cs).1 ++ (splitTrivia mode cs).2 = cs := by
  induction cs generalizing mode with
  | nil => cases mode <;> rfl
  | cons c cs ih =>
    cases mode with
    | comment => simp [splitTrivia, ih]
    | blank =>
      simp only [splitTrivia]
      split
      · simp [ih]
      · split
        · simp [ih]
        · rfl

theorem closeString_append {escaped : Bool} {cs body rest : List Char}
    (h : closeString escaped cs = some (body, rest)) : body ++ rest = cs := by
  induction cs generalizing escaped body with
  | nil => cases escaped <;> cases h
  | cons c cs ih =>
    cases escaped with
    | true =>
      obtain ⟨⟨b, r⟩, hb, he⟩ := Option.map_eq_some_iff.mp h
      cases he
      simp [ih hb]
    | false =>
      rw [closeString] at h
      split at h
      · cases h; rfl
      · obtain ⟨⟨b, r⟩, hb, he⟩ := Option.map_eq_some_iff.mp h
        cases he
        simp [ih hb]

theorem splitLexeme_append (c : Char) (cs : List Char) :
    (splitLexeme c cs).text ++ (splitLexeme c cs).rest = c :: cs := by
  unfold splitLexeme
  split
  · simp [List.takeWhile_append_dropWhile]
  · split
    · simp [List.takeWhile_append_dropWhile]
    · split
      · split
        · next h => simp [closeString_append h]
        · simp
      · rfl

/-- A token has at least one character. -/
theorem splitLexeme_text_ne_nil (c : Char) (cs : List Char) :
    (splitLexeme c cs).text ≠ [] := by
  unfold splitLexeme
  repeat' split
  all_goals exact List.cons_ne_nil _ _

theorem length_splitTrivia_le (mode : Trivia) (cs : List Char) :
    (splitTrivia mode cs).2.length ≤ cs.length := by
  have h := congrArg List.length (splitTrivia_append mode cs)
  rw [List.length_append] at h
  omega

theorem length_splitLexeme_lt (c : Char) (cs : List Char) :
    (splitLexeme c cs).rest.length < (c :: cs).length := by
  have h := congrArg List.length (splitLexeme_append c cs)
  have ht := List.length_pos_iff.mpr (splitLexeme_text_ne_nil c cs)
  rw [List.length_append] at h
  omega

end Lexical

/-! ## The scanner -/

/-- A text being read: the characters still unread and where they start. -/
structure Scanner where
  rest : List Char
  position : Position

namespace Scanner

open Lexical

def ofText (text : String) : Scanner := ⟨text.toList, .start⟩

/-- The token at `start` that a text without leading trivia begins with. -/
def tokenAt (start : Position) : List Char → Token × Scanner
  | [] => (.atEnd start, ⟨[], start⟩)
  | c :: cs =>
    let lexeme := splitLexeme c cs
    (⟨lexeme.kind, String.ofList lexeme.text, start⟩,
      ⟨lexeme.rest, start.advanceBy lexeme.text⟩)

/-- The next token of the text. Behind the last one this is the end of the
input, as often as it is asked for. -/
def next (s : Scanner) : Token × Scanner :=
  let split := splitTrivia .blank s.rest
  tokenAt (s.position.advanceBy split.1) split.2

theorem length_tokenAt_le (p : Position) (cs : List Char) :
    (tokenAt p cs).2.rest.length ≤ cs.length := by
  cases cs with
  | nil => exact Nat.le_refl _
  | cons c cs => exact Nat.le_of_lt (length_splitLexeme_lt c cs)

theorem length_tokenAt_lt (p : Position) (cs : List Char)
    (h : (tokenAt p cs).1.kind ≠ .endOfInput) :
    (tokenAt p cs).2.rest.length < cs.length := by
  cases cs with
  | nil => exact absurd rfl h
  | cons c cs => exact length_splitLexeme_lt c cs

theorem length_next_le (s : Scanner) : s.next.2.rest.length ≤ s.rest.length :=
  Nat.le_trans (length_tokenAt_le _ _) (length_splitTrivia_le _ _)

theorem length_next_lt (s : Scanner) (h : s.next.1.kind ≠ .endOfInput) :
    s.next.2.rest.length < s.rest.length :=
  Nat.lt_of_lt_of_le (length_tokenAt_lt _ _ h) (length_splitTrivia_le _ _)

/-- Reading text reports each token that belongs to no class. -/
def notices (t : Token) : List Event :=
  if t.kind = .invalid then [.unrecognisedInput t.position t.text] else []

instance : TokenSource Scanner where
  next := next
  notices := notices
  size s := s.rest.length
  size_next_le := length_next_le
  size_next_lt := length_next_lt

end Scanner

/-- All tokens of a text, the end of the input included. -/
def tokenize (text : String) : List Token :=
  TokenSource.drain (Scanner.ofText text)

end WorkflowScript
