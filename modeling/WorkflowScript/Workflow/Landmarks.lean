import WorkflowScript.Token.Basic
import WorkflowScript.Workflow.Basic

/-!
# Landmarks

A node of a tree that has a position shows where one token of the source
stood, and which one it was: the keyword of a definition, the name of
a variable. `landmarks` lists these tokens by a walk through the tree in the
order of the source: a node in front of its parts, the head of a loop
in front of its body, a body in front of what is returned, a left operand in
front of the right one.

Only the declaration in the head of a loop may show one of two tokens, its
keyword or its name, whichever follows the `for`.

A node of a workflow may mix its actions and its transitions, and keeps each
kind apart. So there are two walks through a workflow, one for each kind.
-/

namespace WorkflowScript

/-- What a position of a tree points at. -/
inductive Landmark where
  /-- A token with this text. -/
  | token (text : String) (position : Position)
  /-- The declaration of `name` in the head of the loop at `loop`. -/
  | head (loop : Position) (name : String) (position : Position)

namespace Landmark

def position : Landmark → Position
  | token _ position => position
  | head _ _ position => position

/-- There is such a token among the tokens. Behind the `for` of a loop it is
the `var` in front of the declared name, or the name itself. -/
def StandsIn (tokens : List Token) : Landmark → Prop
  | token text position => ∃ t ∈ tokens, t.position = position ∧ t.text = text
  | head loop name position => ∃ before start t after,
      tokens = before ++ start :: t :: after ∧
        start.position = loop ∧ start.text = "for" ∧ t.position = position ∧
          (t.text = "var" ∧ after.head?.map Token.text = some name ∨
            t.text = name ∧ name ≠ "var")

end Landmark

/-! ## Expressions -/

mutual

def Condition.landmarks : Condition → List Landmark
  | ⟨first, rest⟩ => first.landmarks ++ landmarksOfConjunctions rest

def landmarksOfConjunctions : List Conjunction → List Landmark
  | [] => []
  | c :: cs => c.landmarks ++ landmarksOfConjunctions cs

def Conjunction.landmarks : Conjunction → List Landmark
  | ⟨first, rest⟩ => first.landmarks ++ landmarksOfClauses rest

def landmarksOfClauses : List Clause → List Landmark
  | [] => []
  | c :: cs => c.landmarks ++ landmarksOfClauses cs

def Clause.landmarks : Clause → List Landmark
  | ⟨_, relation⟩ => relation.landmarks

def Relation.landmarks : Relation → List Landmark
  | ⟨left, none⟩ => left.landmarks
  | ⟨left, some (_, right)⟩ => left.landmarks ++ right.landmarks

def Expression.landmarks : Expression → List Landmark
  | ⟨first, rest⟩ => first.landmarks ++ landmarksOfAddends rest

def landmarksOfAddends : List (AddOp × Term) → List Landmark
  | [] => []
  | (_, t) :: rest => t.landmarks ++ landmarksOfAddends rest

def Term.landmarks : Term → List Landmark
  | ⟨first, rest⟩ => first.landmarks ++ landmarksOfMultipliers rest

def landmarksOfMultipliers : List (MulOp × Factor) → List Landmark
  | [] => []
  | (_, f) :: rest => f.landmarks ++ landmarksOfMultipliers rest

def Factor.landmarks : Factor → List Landmark
  | .variable name position => [.token name position]
  | .call call => call.landmarks
  | .integer _ | .string _ | .bool _ => []
  | .group inner => inner.landmarks

def Call.landmarks : Call → List Landmark
  | ⟨name, args, position⟩ => .token name position :: landmarksOfArguments args

def landmarksOfArguments : List Expression → List Landmark
  | [] => []
  | e :: es => e.landmarks ++ landmarksOfArguments es

end

/-! ## Statements -/

def Declaration.landmarks (d : Declaration) : List Landmark :=
  .token "var" d.position :: d.value.landmarks

/-- The declaration in the head of the loop at `loop`. -/
def Declaration.headLandmarks (loop : Position) (d : Declaration) : List Landmark :=
  .head loop d.name d.position :: d.value.landmarks

def Assignment.landmarks (a : Assignment) : List Landmark :=
  .token a.name a.position :: a.value.landmarks

/-- The landmarks of what may be missing. -/
def landmarksOfOption {α : Type} (landmarks : α → List Landmark) : Option α → List Landmark
  | none => []
  | some a => landmarks a

mutual

def Statement.landmarks : Statement → List Landmark
  | .definition d => d.landmarks
  | .declaration d => d.landmarks
  | .assignment a => a.landmarks
  | .conditional c => c.landmarks
  | .loop l => l.landmarks
  | .call c => c.landmarks

def Definition.landmarks : Definition → List Landmark
  | ⟨_, _, body, returns, position⟩ =>
    .token "def" position ::
      (landmarksOfStatements body ++ landmarksOfOption Expression.landmarks returns)

def Conditional.landmarks : Conditional → List Landmark
  | ⟨condition, body, position⟩ =>
    .token "if" position :: (condition.landmarks ++ landmarksOfStatements body)

def Loop.landmarks : Loop → List Landmark
  | ⟨init, condition, step, body, position⟩ =>
    .token "for" position :: (init.headLandmarks position ++ (condition.landmarks ++
      (step.landmarks ++ landmarksOfStatements body)))

def landmarksOfStatements : List Statement → List Landmark
  | [] => []
  | s :: ss => s.landmarks ++ landmarksOfStatements ss

end

/-! ## Workflows -/

def Action.landmarks (a : Action) : List Landmark :=
  .token a.phase.keyword a.position :: landmarksOfStatements a.statements

def Transition.landmarks (t : Transition) : List Landmark :=
  .token "transition" t.position :: landmarksOfOption Condition.landmarks t.guard

/-- The actions of a node, or its transitions. -/
inductive Members where
  | actions | transitions

/-- A node, and then its members of one kind. -/
def Node.landmarks (n : Node) (members : Members) : List Landmark :=
  .token n.kind.keyword n.position ::
    match members with
    | .actions => n.actions.flatMap Action.landmarks
    | .transitions => n.transitions.flatMap Transition.landmarks

def Workflow.landmarks (w : Workflow) (members : Members) : List Landmark :=
  .token "workflow" w.position :: w.nodes.flatMap fun n => n.landmarks members

end WorkflowScript
