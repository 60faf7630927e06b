import WorkflowScript.Statement.Print
import WorkflowScript.Workflow.Basic

/-!
# Printing workflows

One header, statement or transition on a line, two spaces for each level.
A node shows its actions first and its transitions behind them, each in
the order of the tree.
-/

namespace WorkflowScript

/-- Lines one after the other. -/
def joinLines {α : Type} (print : α → String) (items : List α) : String :=
  String.join (items.map print)

/-- A statement on a line of an action. -/
def printStatementLine (s : Statement) : String := "      " ++ s.print ++ "\n"

def Action.print (a : Action) : String :=
  "    " ++ a.phase.keyword ++ "\n" ++ joinLines printStatementLine a.statements ++ "    end\n"

/-- The condition under which a transition is open, if it has one. -/
def printGuard : Option Condition → String
  | none => ""
  | some guard => " if " ++ guard.print

def Transition.print (t : Transition) : String :=
  "    transition to " ++ t.target ++ printGuard t.guard ++ "\n"

def Node.print (n : Node) : String :=
  "  " ++ n.kind.keyword ++ " " ++ n.name ++ "\n" ++ joinLines Action.print n.actions ++
    joinLines Transition.print n.transitions ++ "  end\n"

def Workflow.print (w : Workflow) : String :=
  "workflow " ++ w.name ++ "\n" ++ joinLines Node.print w.nodes ++ "end\n"

end WorkflowScript
