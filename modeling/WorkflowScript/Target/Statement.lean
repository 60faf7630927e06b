import WorkflowScript.Statement.Basic
import WorkflowScript.Target.Expression

/-!
# Target code of statements

Statements follow one another without anything between them. A definition
becomes a function whose parameters stand for themselves throughout its
body and its return expression. A declaration shows its `var` only where
the resolver leaves its name alone, since a renamed variable lives
elsewhere.
-/

namespace WorkflowScript

/-- A declaration without the semicolon that ends a statement. -/
def Declaration.generate (names : Resolver) (d : Declaration) : String :=
  (if names d.name = d.name then "var " else "") ++ names d.name ++ "=" ++ d.value.generate names

/-- An assignment without the semicolon that ends a statement. -/
def Assignment.generate (names : Resolver) (a : Assignment) : String :=
  names a.name ++ "=" ++ a.value.generate names

/-- The return statement of a function, if it has one. -/
def generateReturns (names : Resolver) : Option Expression → String
  | none => ""
  | some value => "return " ++ value.generate names ++ ";"

mutual

def Statement.generate (names : Resolver) : Statement → String
  | .definition d => d.generate names
  | .declaration d => d.generate names ++ ";"
  | .assignment a => a.generate names ++ ";"
  | .conditional c => c.generate names
  | .loop l => l.generate names
  | .call c => c.generate names ++ ";"

def Definition.generate (names : Resolver) : Definition → String
  | ⟨name, params, body, returns, _⟩ =>
    "function " ++ name ++ "(" ++ ",".intercalate params ++ ")\x7b" ++
      generateScript (names.within params) body ++
      generateReturns (names.within params) returns ++ "\x7d"

def Conditional.generate (names : Resolver) : Conditional → String
  | ⟨condition, body, _⟩ =>
    "if(" ++ condition.generate names ++ ")\x7b" ++ generateScript names body ++ "\x7d"

def Loop.generate (names : Resolver) : Loop → String
  | ⟨init, condition, step, body, _⟩ =>
    "for(" ++ init.generate names ++ ";" ++ condition.generate names ++ ";" ++
      step.generate names ++ ")\x7b" ++ generateScript names body ++ "\x7d"

/-- The code of statements that follow one another. -/
def generateScript (names : Resolver) : List Statement → String
  | [] => ""
  | s :: ss => s.generate names ++ generateScript names ss

end

end WorkflowScript
