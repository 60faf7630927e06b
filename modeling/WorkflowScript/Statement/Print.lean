import WorkflowScript.Expression.Print
import WorkflowScript.Statement.Basic

/-!
# Printing statements

A statement is printed on one line, the statements of a body each behind
one space. A declaration shows its `var` unless it stands in the head of a
loop.
-/

namespace WorkflowScript

/-- The declaration as the head of a loop shows it. -/
def Declaration.printBare (d : Declaration) : String := d.name ++ " = " ++ d.value.print

def Declaration.print (d : Declaration) : String := "var " ++ d.printBare

def Assignment.print (a : Assignment) : String := a.name ++ " = " ++ a.value.print

/-- The return expression of a definition, if it has one. -/
def printReturns : Option Expression → String
  | none => ""
  | some value => " return " ++ value.print

mutual

def Statement.print : Statement → String
  | .definition d => d.print
  | .declaration d => d.print
  | .assignment a => a.print
  | .conditional c => c.print
  | .loop l => l.print
  | .call c => c.print

def Definition.print : Definition → String
  | ⟨name, params, body, returns, _⟩ =>
    "def " ++ name ++ "(" ++ ", ".intercalate params ++ ")" ++ printBody body ++
      printReturns returns ++ " end"

def Conditional.print : Conditional → String
  | ⟨condition, body, _⟩ => "if " ++ condition.print ++ " then" ++ printBody body ++ " end"

def Loop.print : Loop → String
  | ⟨init, condition, step, body, _⟩ =>
    "for " ++ init.printBare ++ "; " ++ condition.print ++ "; " ++ step.print ++ " do" ++
      printBody body ++ " end"

/-- The statements of a body, each behind a space. -/
def printBody : List Statement → String
  | [] => ""
  | s :: ss => " " ++ s.print ++ printBody ss

end

/-- The statements of a script, one on a line. -/
def printScript (statements : List Statement) : String :=
  "\n".intercalate (statements.map Statement.print)

end WorkflowScript
