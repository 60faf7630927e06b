import WorkflowScript.Target.Statement

/-!
# Target code in pieces

The target code of a tree, as it is before any name has been resolved: a
list of pieces, each of them a fixed text or a name. A name is kept together
with the use that the script makes of it and with the parameters of all
definitions around it, and these decide what becomes of it
(`Occurrence.written`): the resolver is asked about the names of variables
that none of those parameters binds, and about no others.
-/

namespace WorkflowScript

/-! ## Names and their uses -/

/-- What a script uses a name for. A variable is read, declared or assigned
to. -/
inductive NameUse where
  | function | parameter | callee
  | read | declared | assigned
deriving Repr, DecidableEq

/-- Whether the name is that of a variable. -/
def NameUse.ofVariable : NameUse → Bool
  | .function | .parameter | .callee => false
  | .read | .declared | .assigned => true

/-- A name where it stands in a script. -/
structure Occurrence where
  use : NameUse
  name : String
  /-- The parameters of the definitions around it. -/
  bound : List String
deriving Repr, DecidableEq

namespace Occurrence

/-- A variable that is no parameter of a definition around it. -/
def Free (o : Occurrence) : Prop := o.use.ofVariable = true ∧ o.name ∉ o.bound

instance (o : Occurrence) : Decidable o.Free := inferInstanceAs (Decidable (_ ∧ _))

/-- What the target code calls it. -/
def target (names : Resolver) (o : Occurrence) : String :=
  if o.Free then names o.name else o.name

/-- What is written for it: a declared variable that keeps its name shows
that it is declared. -/
def written (names : Resolver) (o : Occurrence) : String :=
  (if o.use = .declared ∧ o.target names = o.name then "var " else "") ++ o.target names

end Occurrence

/-! ## Pieces -/

inductive Piece where
  | text (content : String)
  | name (o : Occurrence)
deriving Repr, DecidableEq

/-- What is written for the piece. -/
def Piece.written (names : Resolver) : Piece → String
  | .text content => content
  | .name o => o.written names

/-- The name, if it is that of a free variable. -/
def Piece.free? : Piece → Option String
  | .text _ => none
  | .name o => if o.Free then some o.name else none

/-- The name, whatever its use. -/
def Piece.name? : Piece → Option String
  | .text _ => none
  | .name o => some o.name

/-- The text that pieces make. -/
def writePieces (names : Resolver) (pieces : List Piece) : String :=
  String.join (pieces.map (Piece.written names))

/-- The pieces, in round brackets if `bracket` is set. -/
def wrapPiecesIf (bracket : Bool) (pieces : List Piece) : List Piece :=
  if bracket then .text "(" :: pieces ++ [.text ")"] else pieces

/-! ## Expressions -/

mutual

def Condition.pieces (bound : List String) : Condition → List Piece
  | ⟨first, rest⟩ => first.pieces bound ++ piecesOfAlternatives bound rest

def piecesOfAlternatives (bound : List String) : List Conjunction → List Piece
  | [] => []
  | c :: cs => .text "||" :: c.pieces bound ++ piecesOfAlternatives bound cs

def Conjunction.pieces (bound : List String) : Conjunction → List Piece
  | ⟨first, rest⟩ => first.pieces bound ++ piecesOfConjuncts bound rest

def piecesOfConjuncts (bound : List String) : List Clause → List Piece
  | [] => []
  | c :: cs => .text "&&" :: c.pieces bound ++ piecesOfConjuncts bound cs

def Clause.pieces (bound : List String) : Clause → List Piece
  | ⟨true, relation⟩ => .text "!(" :: relation.pieces bound ++ [.text ")"]
  | ⟨false, relation⟩ => relation.pieces bound

def Relation.pieces (bound : List String) : Relation → List Piece
  | ⟨left, none⟩ => left.pieces bound
  | ⟨left, some (op, right)⟩ =>
    left.pieces bound ++ .text op.targetSymbol :: right.pieces bound

def Expression.pieces (bound : List String) : Expression → List Piece
  | ⟨first, rest⟩ =>
    wrapPiecesIf (!rest.isEmpty) (first.pieces bound ++ piecesOfAddends bound rest)

def piecesOfAddends (bound : List String) : List (AddOp × Term) → List Piece
  | [] => []
  | (op, t) :: rest => .text op.symbol :: t.pieces bound ++ piecesOfAddends bound rest

def Term.pieces (bound : List String) : Term → List Piece
  | ⟨first, rest⟩ =>
    wrapPiecesIf (!rest.isEmpty) (first.pieces bound ++ piecesOfMultipliers bound rest)

def piecesOfMultipliers (bound : List String) : List (MulOp × Factor) → List Piece
  | [] => []
  | (op, f) :: rest => .text op.symbol :: f.pieces bound ++ piecesOfMultipliers bound rest

def Factor.pieces (bound : List String) : Factor → List Piece
  | .variable name _ => [.name ⟨.read, name, bound⟩]
  | .call call => call.pieces bound
  | .integer text => [.text text]
  | .string text => [.text text]
  | .bool true => [.text "true"]
  | .bool false => [.text "false"]
  | .group inner => .text "(" :: inner.pieces bound ++ [.text ")"]

def Call.pieces (bound : List String) : Call → List Piece
  | ⟨name, [], _⟩ => [.name ⟨.callee, name, bound⟩, .text "()"]
  | ⟨name, first :: rest, _⟩ =>
    .name ⟨.callee, name, bound⟩ :: .text "(" :: first.pieces bound ++
      piecesOfArguments bound rest ++ [.text ")"]

def piecesOfArguments (bound : List String) : List Expression → List Piece
  | [] => []
  | e :: es => .text "," :: e.pieces bound ++ piecesOfArguments bound es

end

/-! ## Statements -/

def Declaration.pieces (bound : List String) (d : Declaration) : List Piece :=
  .name ⟨.declared, d.name, bound⟩ :: .text "=" :: d.value.pieces bound

def Assignment.pieces (bound : List String) (a : Assignment) : List Piece :=
  .name ⟨.assigned, a.name, bound⟩ :: .text "=" :: a.value.pieces bound

def piecesOfReturns (bound : List String) : Option Expression → List Piece
  | none => []
  | some value => .text "return " :: value.pieces bound ++ [.text ";"]

/-- Parameters with a comma between them. -/
def piecesOfParameters (bound : List String) : List String → List Piece
  | [] => []
  | first :: rest =>
    .name ⟨.parameter, first, bound⟩ ::
      rest.flatMap fun name => [.text ",", .name ⟨.parameter, name, bound⟩]

mutual

def Statement.pieces (bound : List String) : Statement → List Piece
  | .definition d => d.pieces bound
  | .declaration d => d.pieces bound ++ [.text ";"]
  | .assignment a => a.pieces bound ++ [.text ";"]
  | .conditional c => c.pieces bound
  | .loop l => l.pieces bound
  | .call c => c.pieces bound ++ [.text ";"]

/-- The parameters surround the body and what is returned, and nothing else. -/
def Definition.pieces (bound : List String) : Definition → List Piece
  | ⟨name, params, body, returns, _⟩ =>
    .text "function " :: .name ⟨.function, name, bound⟩ :: .text "(" ::
      piecesOfParameters bound params ++ .text ")\x7b" ::
      piecesOfScript (params ++ bound) body ++
      piecesOfReturns (params ++ bound) returns ++ [.text "\x7d"]

def Conditional.pieces (bound : List String) : Conditional → List Piece
  | ⟨condition, body, _⟩ =>
    .text "if(" :: condition.pieces bound ++ .text ")\x7b" :: piecesOfScript bound body ++
      [.text "\x7d"]

def Loop.pieces (bound : List String) : Loop → List Piece
  | ⟨init, condition, step, body, _⟩ =>
    .text "for(" :: init.pieces bound ++ .text ";" :: condition.pieces bound ++ .text ";" ::
      step.pieces bound ++ .text ")\x7b" :: piecesOfScript bound body ++ [.text "\x7d"]

/-- The pieces of statements that follow one another. -/
def piecesOfScript (bound : List String) : List Statement → List Piece
  | [] => []
  | s :: ss => s.pieces bound ++ piecesOfScript bound ss

end

/-- The names that occur in a script. -/
def namesOf (statements : List Statement) : List String :=
  (piecesOfScript [] statements).filterMap Piece.name?

/-- The variables of a script that are free where they stand. -/
def freeNames (statements : List Statement) : List String :=
  (piecesOfScript [] statements).filterMap Piece.free?

end WorkflowScript
