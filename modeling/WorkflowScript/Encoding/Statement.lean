import WorkflowScript.Encoding.Expression
import WorkflowScript.Statement.Basic

/-!
# Statements as JSON

A statement is an object with the fields of its payload and, in front of
them, the name of its form in the field `t`. A payload on its own has no
`t`. A missing `returns` is read as a null one.
-/

namespace WorkflowScript

open Json (asString asList field field?)

/-! ## Writing -/

def Declaration.jsonFields (d : Declaration) : List (String × Json) :=
  [("name", .string d.name), ("value", d.value.toJson), ("position", d.position.toJson)]

def Assignment.jsonFields (a : Assignment) : List (String × Json) :=
  [("name", .string a.name), ("value", a.value.toJson), ("position", a.position.toJson)]

def Declaration.toJson (d : Declaration) : Json := .object d.jsonFields

def Assignment.toJson (a : Assignment) : Json := .object a.jsonFields

mutual

def Statement.toJson : Statement → Json
  | .definition d => .object (("t", .string "Definition") :: d.jsonFields)
  | .declaration d => .object (("t", .string "VarDeclaration") :: d.jsonFields)
  | .assignment a => .object (("t", .string "VarAssignment") :: a.jsonFields)
  | .conditional c => .object (("t", .string "If") :: c.jsonFields)
  | .loop l => .object (("t", .string "For") :: l.jsonFields)
  | .call c => .object (("t", .string "Call") :: c.jsonFields)

def Definition.jsonFields : Definition → List (String × Json)
  | ⟨name, params, body, returns, position⟩ =>
    [("name", .string name), ("params", .array (params.map .string)),
      ("body", .array (statementsToJson body)),
      ("returns", Json.ofOption Expression.toJson returns), ("position", position.toJson)]

def Conditional.jsonFields : Conditional → List (String × Json)
  | ⟨condition, body, position⟩ =>
    [("condition", condition.toJson), ("body", .array (statementsToJson body)),
      ("position", position.toJson)]

def Loop.jsonFields : Loop → List (String × Json)
  | ⟨init, condition, step, body, position⟩ =>
    [("init", init.toJson), ("condition", condition.toJson), ("step", step.toJson),
      ("body", .array (statementsToJson body)), ("position", position.toJson)]

def statementsToJson : List Statement → List Json
  | [] => []
  | s :: ss => s.toJson :: statementsToJson ss

end

def Definition.toJson (d : Definition) : Json := .object d.jsonFields

def Conditional.toJson (c : Conditional) : Json := .object c.jsonFields

def Loop.toJson (l : Loop) : Json := .object l.jsonFields

/-! ## Reading -/

def Declaration.ofJson? (j : Json) : Option Declaration := do
  let name ← field "name" asString j
  let value ← field "value" Expression.ofJson? j
  let position ← field "position" Position.ofJson? j
  some ⟨name, value, position⟩

def Assignment.ofJson? (j : Json) : Option Assignment := do
  let name ← field "name" asString j
  let value ← field "value" Expression.ofJson? j
  let position ← field "position" Position.ofJson? j
  some ⟨name, value, position⟩

section Bodies

variable (statement : Json → Option Statement)

def definitionOfJson? (j : Json) : Option Definition := do
  let name ← field "name" asString j
  let params ← field "params" (asList asString) j
  let body ← field "body" (asList statement) j
  let returns ← field? "returns" Expression.ofJson? j
  let position ← field "position" Position.ofJson? j
  some ⟨name, params, body, returns, position⟩

def conditionalOfJson? (j : Json) : Option Conditional := do
  let condition ← field "condition" Condition.ofJson? j
  let body ← field "body" (asList statement) j
  let position ← field "position" Position.ofJson? j
  some ⟨condition, body, position⟩

def loopOfJson? (j : Json) : Option Loop := do
  let init ← field "init" Declaration.ofJson? j
  let condition ← field "condition" Relation.ofJson? j
  let step ← field "step" Assignment.ofJson? j
  let body ← field "body" (asList statement) j
  let position ← field "position" Position.ofJson? j
  some ⟨init, condition, step, body, position⟩

/-- A statement whose body is read by `statement`. -/
def statementOfJson? (j : Json) : Option Statement := do
  match ← field "t" asString j with
  | "Definition" => (definitionOfJson? statement j).map .definition
  | "VarDeclaration" => (Declaration.ofJson? j).map .declaration
  | "VarAssignment" => (Assignment.ofJson? j).map .assignment
  | "If" => (conditionalOfJson? statement j).map .conditional
  | "For" => (loopOfJson? statement j).map .loop
  | "Call" => (Call.ofJson? j).map .call
  | _ => none

end Bodies

/-- A statement in a value of at most the given depth. -/
def Statement.ofJsonWithin? : (depth : Nat) → Json → Option Statement
  | 0, _ => none
  | depth + 1, j => statementOfJson? (ofJsonWithin? depth) j

def Statement.ofJson? (j : Json) : Option Statement := Statement.ofJsonWithin? j.depth j

def Definition.ofJson? (j : Json) : Option Definition :=
  definitionOfJson? (Statement.ofJsonWithin? j.depth) j

def Conditional.ofJson? (j : Json) : Option Conditional :=
  conditionalOfJson? (Statement.ofJsonWithin? j.depth) j

def Loop.ofJson? (j : Json) : Option Loop :=
  loopOfJson? (Statement.ofJsonWithin? j.depth) j

end WorkflowScript
