import WorkflowScript.Workflow.Basic

/-!
# Transformers

A transformer is offered every node of a tree before the node's children
are visited, and answers with the node that takes its place. Each type of
node has its own `Hook`; `Hook.Node` is that type, so a transformer is one
function over all hooks.

`Visit` is the computation that a transformer drives: it threads the
transformer's state, collects the text printed on the way, and may run out
of the fuel it was given, in which case there is no answer.
-/

namespace WorkflowScript

/-- The types of nodes that are offered to a transformer. -/
inductive Hook where
  | statement | definition | declaration | assignment | conditional | loop | call
  | condition | conjunction | clause | relation | expression | term | factor
deriving Repr, DecidableEq

/-- The nodes offered to a hook. -/
@[reducible] def Hook.Node : Hook → Type
  | .statement => Statement
  | .definition => Definition
  | .declaration => Declaration
  | .assignment => Assignment
  | .conditional => Conditional
  | .loop => Loop
  | .call => Call
  | .condition => Condition
  | .conjunction => Conjunction
  | .clause => Clause
  | .relation => Relation
  | .expression => Expression
  | .term => Term
  | .factor => Factor

/-- What takes the place of each node, with a state that is threaded
through the nodes in the order in which they are offered. -/
structure Transformer (σ : Type) where
  replace : (h : Hook) → h.Node → σ → h.Node × σ

namespace Transformer

/-- The transformer that leaves every node as it is. -/
def identity : Transformer Unit := ⟨fun _ node state => (node, state)⟩

/-- A transformer that also notes which hooks are called, the latest last. -/
def traced {σ : Type} (t : Transformer σ) : Transformer (σ × List Hook) where
  replace h node state :=
    let (node', inner) := t.replace h node state.1
    (node', inner, state.2 ++ [h])

end Transformer

/-! ## Visits -/

/-- What a finished visit leaves. -/
structure Visited (σ α : Type) where
  value : α
  /-- The text printed. -/
  text : String
  state : σ

/-- A computation over a transformer's state that prints; `none` stands for
running out of fuel. -/
def Visit (σ α : Type) : Type := σ → Option (Visited σ α)

namespace Visit

variable {σ α β : Type}

protected def pure (a : α) : Visit σ α := fun s => some ⟨a, "", s⟩

protected def bind (x : Visit σ α) (f : α → Visit σ β) : Visit σ β := fun s =>
  match x s with
  | none => none
  | some a =>
    match f a.value a.state with
    | none => none
    | some b => some { b with text := a.text ++ b.text }

instance : Monad (Visit σ) where
  pure := Visit.pure
  bind := Visit.bind

/-- Prints a text. -/
def emit (text : String) : Visit σ Unit := fun s => some ⟨(), text, s⟩

/-- Offers a node to the transformer. -/
def offer (t : Transformer σ) (h : Hook) (node : h.Node) : Visit σ h.Node := fun s =>
  let (node', s') := t.replace h node s
  some ⟨node', "", s'⟩

/-- Gives up for lack of fuel. -/
def exhausted : Visit σ α := fun _ => none

/-- Visits the items of a list in order, printing `lead` before each. -/
def eachAfter (lead : String) (visit : α → Visit σ α) : List α → Visit σ (List α)
  | [] => pure []
  | x :: xs => do
    emit lead
    let x ← visit x
    let xs ← eachAfter lead visit xs
    pure (x :: xs)

/-- Visits the items of a list in order, printing `lead` before each but
the first. -/
def eachBetween (lead : String) (visit : α → Visit σ α) : List α → Visit σ (List α)
  | [] => pure []
  | x :: xs => do
    let x ← visit x
    let xs ← eachAfter lead visit xs
    pure (x :: xs)

/-- Visits the operands of a list of pairs in order, printing each operator
between spaces before its operand. -/
def eachOperand {ω : Type} (symbol : ω → String) (visit : α → Visit σ α) :
    List (ω × α) → Visit σ (List (ω × α))
  | [] => pure []
  | (op, x) :: xs => do
    emit (" " ++ symbol op ++ " ")
    let x ← visit x
    let xs ← eachOperand symbol visit xs
    pure ((op, x) :: xs)

end Visit

end WorkflowScript
