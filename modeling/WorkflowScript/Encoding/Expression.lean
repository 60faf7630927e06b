import WorkflowScript.Expression.Basic
import WorkflowScript.Json.Basic

/-!
# Expressions as JSON

Every tree has one JSON form: a layer is an object with its parts by name,
an operator is its name, an operand behind an operator is the pair of
both, and a factor carries the name of its form in the field `t`.

`toJson` writes this form. The `ofJson?` functions read it again. They
take objects whose fields are in any order, ignore fields they do not
know, and take a missing `comparison` for a null one. Reading checks the
shape only: names and texts may be anything.
-/

namespace WorkflowScript

open Json (asString asBool asWord asList asPair asNamed field field? get?)

/-! ## Positions and operators -/

def Position.toJson (p : Position) : Json :=
  .object [("offset", .natural p.offset), ("line", .natural p.line),
    ("column", .natural p.column)]

def Position.ofJson? (j : Json) : Option Position := do
  let offset ← field "offset" asWord j
  let line ← field "line" asWord j
  let column ← field "column" asWord j
  some ⟨offset, line, column⟩

def AddOp.name : AddOp → String
  | .plus => "Plus"
  | .minus => "Minus"

def MulOp.name : MulOp → String
  | .times => "Times"
  | .divide => "Divide"

def RelOp.name : RelOp → String
  | .greater => "Greater"
  | .less => "Less"
  | .equal => "Equal"

def AddOp.ofJson? : Json → Option AddOp := asNamed [.plus, .minus] AddOp.name

def MulOp.ofJson? : Json → Option MulOp := asNamed [.times, .divide] MulOp.name

def RelOp.ofJson? : Json → Option RelOp := asNamed [.greater, .less, .equal] RelOp.name

/-! ## Writing -/

mutual

/-- The fields of a condition, which a group shares. -/
def Condition.jsonFields : Condition → List (String × Json)
  | ⟨first, rest⟩ => [("first", first.toJson), ("rest", .array (conjunctionsToJson rest))]

def conjunctionsToJson : List Conjunction → List Json
  | [] => []
  | c :: cs => c.toJson :: conjunctionsToJson cs

def Conjunction.toJson : Conjunction → Json
  | ⟨first, rest⟩ =>
    .object [("first", first.toJson), ("rest", .array (clausesToJson rest))]

def clausesToJson : List Clause → List Json
  | [] => []
  | c :: cs => c.toJson :: clausesToJson cs

def Clause.toJson : Clause → Json
  | ⟨negated, relation⟩ =>
    .object [("negated", .bool negated), ("relation", relation.toJson)]

def Relation.toJson : Relation → Json
  | ⟨left, none⟩ => .object [("left", left.toJson), ("comparison", .null)]
  | ⟨left, some (op, right)⟩ =>
    .object [("left", left.toJson), ("comparison", .array [.string op.name, right.toJson])]

def Expression.toJson : Expression → Json
  | ⟨first, rest⟩ =>
    .object [("first", first.toJson), ("rest", .array (addendsToJson rest))]

def addendsToJson : List (AddOp × Term) → List Json
  | [] => []
  | (op, t) :: rest => .array [.string op.name, t.toJson] :: addendsToJson rest

def Term.toJson : Term → Json
  | ⟨first, rest⟩ =>
    .object [("first", first.toJson), ("rest", .array (multipliersToJson rest))]

def multipliersToJson : List (MulOp × Factor) → List Json
  | [] => []
  | (op, f) :: rest => .array [.string op.name, f.toJson] :: multipliersToJson rest

def Factor.toJson : Factor → Json
  | .variable name position =>
    .object [("t", .string "Variable"), ("name", .string name), ("position", position.toJson)]
  | .call call => .object (("t", .string "Call") :: call.jsonFields)
  | .integer text => .object [("t", .string "Integer"), ("text", .string text)]
  | .string text => .object [("t", .string "String"), ("text", .string text)]
  | .bool value => .object [("t", .string "Bool"), ("value", .bool value)]
  | .group inner => .object (("t", .string "Group") :: inner.jsonFields)

/-- The fields of a call, which a call in an expression and one that
stands as a statement share. -/
def Call.jsonFields : Call → List (String × Json)
  | ⟨name, args, position⟩ =>
    [("name", .string name), ("args", .array (argumentsToJson args)),
      ("position", position.toJson)]

def argumentsToJson : List Expression → List Json
  | [] => []
  | e :: es => e.toJson :: argumentsToJson es

end

def Condition.toJson (c : Condition) : Json := .object c.jsonFields

def Call.toJson (c : Call) : Json := .object c.jsonFields

/-! ## Reading

As in the grammar, the layers are written over the reader of their
factors, and only that one is recursive. Each step into a group or an
argument list goes at least one level down in the value, so the value's
depth bounds them all. -/

section Layers

variable (factor : Json → Option Factor)

def termOfJson? (j : Json) : Option Term := do
  let first ← field "first" factor j
  let rest ← field "rest" (asList (asPair MulOp.ofJson? factor)) j
  some ⟨first, rest⟩

def expressionOfJson? (j : Json) : Option Expression := do
  let first ← field "first" (termOfJson? factor) j
  let rest ← field "rest" (asList (asPair AddOp.ofJson? (termOfJson? factor))) j
  some ⟨first, rest⟩

def relationOfJson? (j : Json) : Option Relation := do
  let left ← field "left" (expressionOfJson? factor) j
  let comparison ← field? "comparison" (asPair RelOp.ofJson? (expressionOfJson? factor)) j
  some ⟨left, comparison⟩

def clauseOfJson? (j : Json) : Option Clause := do
  let negated ← field "negated" asBool j
  let relation ← field "relation" (relationOfJson? factor) j
  some ⟨negated, relation⟩

def conjunctionOfJson? (j : Json) : Option Conjunction := do
  let first ← field "first" (clauseOfJson? factor) j
  let rest ← field "rest" (asList (clauseOfJson? factor)) j
  some ⟨first, rest⟩

def conditionOfJson? (j : Json) : Option Condition := do
  let first ← field "first" (conjunctionOfJson? factor) j
  let rest ← field "rest" (asList (conjunctionOfJson? factor)) j
  some ⟨first, rest⟩

def callOfJson? (j : Json) : Option Call := do
  let name ← field "name" asString j
  let args ← field "args" (asList (expressionOfJson? factor)) j
  let position ← field "position" Position.ofJson? j
  some ⟨name, args, position⟩

/-- A factor whose parts are read by `factor`. -/
def factorOfJson? (j : Json) : Option Factor := do
  match ← field "t" asString j with
  | "Variable" =>
    let name ← field "name" asString j
    let position ← field "position" Position.ofJson? j
    some (.variable name position)
  | "Call" => (callOfJson? factor j).map .call
  | "Integer" => (field "text" asString j).map .integer
  | "String" => (field "text" asString j).map .string
  | "Bool" => (field "value" asBool j).map .bool
  | "Group" => (conditionOfJson? factor j).map .group
  | _ => none

end Layers

/-- A factor in a value of at most the given depth. -/
def Factor.ofJsonWithin? : (depth : Nat) → Json → Option Factor
  | 0, _ => none
  | depth + 1, j => factorOfJson? (ofJsonWithin? depth) j

def Factor.ofJson? (j : Json) : Option Factor := Factor.ofJsonWithin? j.depth j

def Term.ofJson? (j : Json) : Option Term := termOfJson? (Factor.ofJsonWithin? j.depth) j

def Expression.ofJson? (j : Json) : Option Expression :=
  expressionOfJson? (Factor.ofJsonWithin? j.depth) j

def Relation.ofJson? (j : Json) : Option Relation :=
  relationOfJson? (Factor.ofJsonWithin? j.depth) j

def Clause.ofJson? (j : Json) : Option Clause :=
  clauseOfJson? (Factor.ofJsonWithin? j.depth) j

def Conjunction.ofJson? (j : Json) : Option Conjunction :=
  conjunctionOfJson? (Factor.ofJsonWithin? j.depth) j

def Condition.ofJson? (j : Json) : Option Condition :=
  conditionOfJson? (Factor.ofJsonWithin? j.depth) j

def Call.ofJson? (j : Json) : Option Call := callOfJson? (Factor.ofJsonWithin? j.depth) j

end WorkflowScript
