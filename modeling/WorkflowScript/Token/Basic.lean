import WorkflowScript.Position

/-!
# Tokens

A token is a kind, the text it was written with, and where it stands.
Keywords and punctuation have one spelling each; `TokenKind.spelling?`
is the single table behind recognising them (`ofWord`, `ofChar?`) and
behind naming them in messages (`describe`).
-/

namespace WorkflowScript

/-- What a token is. The first group are the keywords, the second the
punctuation, each kind with its one spelling; then come the open classes,
input that fits none of them, and the end of the input. -/
inductive TokenKind where
  | kwWorkflow | kwEnd | kwNode | kwState | kwJoin | kwEnter | kwLeave
  | kwTransition | kwTo | kwIf | kwThen | kwFor | kwDo | kwVar | kwDef
  | kwReturn | kwTrue | kwFalse | kwAnd | kwOr | kwNot
  | leftParen | rightParen | comma | semicolon | equals | greater | less
  | plus | minus | star | slash
  | identifier | integer | string
  | invalid
  | endOfInput
deriving Repr, DecidableEq

namespace TokenKind

def keywords : List TokenKind :=
  [ kwWorkflow, kwEnd, kwNode, kwState, kwJoin, kwEnter, kwLeave, kwTransition,
    kwTo, kwIf, kwThen, kwFor, kwDo, kwVar, kwDef, kwReturn, kwTrue, kwFalse,
    kwAnd, kwOr, kwNot ]

def punctuation : List TokenKind :=
  [ leftParen, rightParen, comma, semicolon, equals, greater, less, plus, minus,
    star, slash ]

/-- Every kind, in order of declaration. -/
def all : List TokenKind :=
  keywords ++ punctuation ++ [identifier, integer, string, invalid, endOfInput]

theorem mem_all (k : TokenKind) : k ∈ all := by
  cases k <;> decide

/-! ## Spelling -/

/-- The one text a keyword or punctuation kind is written with. -/
def spelling? : TokenKind → Option String
  | kwWorkflow => some "workflow"
  | kwEnd => some "end"
  | kwNode => some "node"
  | kwState => some "state"
  | kwJoin => some "join"
  | kwEnter => some "enter"
  | kwLeave => some "leave"
  | kwTransition => some "transition"
  | kwTo => some "to"
  | kwIf => some "if"
  | kwThen => some "then"
  | kwFor => some "for"
  | kwDo => some "do"
  | kwVar => some "var"
  | kwDef => some "def"
  | kwReturn => some "return"
  | kwTrue => some "true"
  | kwFalse => some "false"
  | kwAnd => some "and"
  | kwOr => some "or"
  | kwNot => some "not"
  | leftParen => some "("
  | rightParen => some ")"
  | comma => some ","
  | semicolon => some ";"
  | equals => some "="
  | greater => some ">"
  | less => some "<"
  | plus => some "+"
  | minus => some "-"
  | star => some "*"
  | slash => some "/"
  | identifier | integer | string | invalid | endOfInput => none

/-- The keyword spelled `word`. -/
def keyword? (word : String) : Option TokenKind :=
  keywords.find? fun k => k.spelling? == some word

/-- The kind of an identifier-shaped word: its keyword, else `identifier`. -/
def ofWord (word : String) : TokenKind :=
  (keyword? word).getD identifier

/-- The punctuation that is the one character `c`. -/
def ofChar? (c : Char) : Option TokenKind :=
  punctuation.find? fun k => k.spelling? == some (String.singleton c)

/-- How messages name the kind: spellings in quotes, classes in words. -/
def describe (k : TokenKind) : String :=
  match k.spelling? with
  | some text => "'" ++ text ++ "'"
  | none =>
    match k with
    | integer => "integer literal"
    | string => "string literal"
    | invalid => "invalid input"
    | endOfInput => "end of input"
    | _ => "identifier"

/-! ## Labels -/

/-- The kind's name in structured output. -/
def label : TokenKind → String
  | kwWorkflow => "Workflow"
  | kwEnd => "End"
  | kwNode => "Node"
  | kwState => "State"
  | kwJoin => "Join"
  | kwEnter => "Enter"
  | kwLeave => "Leave"
  | kwTransition => "Transition"
  | kwTo => "To"
  | kwIf => "If"
  | kwThen => "Then"
  | kwFor => "For"
  | kwDo => "Do"
  | kwVar => "Var"
  | kwDef => "Def"
  | kwReturn => "Return"
  | kwTrue => "True"
  | kwFalse => "False"
  | kwAnd => "And"
  | kwOr => "Or"
  | kwNot => "Not"
  | leftParen => "LeftParen"
  | rightParen => "RightParen"
  | comma => "Comma"
  | semicolon => "Semicolon"
  | equals => "Eq"
  | greater => "Gt"
  | less => "Lt"
  | plus => "Plus"
  | minus => "Minus"
  | star => "Star"
  | slash => "Slash"
  | identifier => "Identifier"
  | integer => "IntegerLiteral"
  | string => "StringLiteral"
  | invalid => "Invalid"
  | endOfInput => "Eof"

/-- The kind whose label is `text`. -/
def ofLabel? (text : String) : Option TokenKind :=
  all.find? fun k => k.label == text

theorem ofLabel?_label (k : TokenKind) : ofLabel? k.label = some k := by
  cases k <;> decide

/-- Kinds whose text says more than the kind does, and is therefore shown
in messages. -/
def showsText : TokenKind → Bool
  | identifier | integer | string | invalid => true
  | _ => false

end TokenKind

/-- A classified piece of source text. -/
structure Token where
  kind : TokenKind
  text : String
  position : Position
deriving Repr, DecidableEq

namespace Token

/-- The token that stands behind the last character. -/
def atEnd (p : Position) : Token := ⟨.endOfInput, "", p⟩

def isEnd (t : Token) : Bool := t.kind == .endOfInput

instance : Inhabited Token := ⟨atEnd .start⟩

end Token

end WorkflowScript
