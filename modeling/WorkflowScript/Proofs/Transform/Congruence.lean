import WorkflowScript.Transform.Fragment

/-!
# Relations that transformations keep

To compare what two transformers make of the same fragment, or one
transformer with more and with less fuel, it is enough to say how they
compare where a node is offered. A `Congruence` is a relation between
visits that holds there, that sequences keep, and that holds of a visit out
of fuel and any other. Every transformation is put together from these
(`Congruence.transform`).
-/

namespace WorkflowScript.Visit

/-- A relation between the visits of two transformers that all ways of
putting them together keep, as long as the left one has no more fuel than
the right one. -/
structure Congruence {σ τ : Type} (t : Transformer σ) (t' : Transformer τ) where
  Rel : {α : Type} → Visit σ α → Visit τ α → Prop
  pure {α : Type} (a : α) : Rel (Pure.pure a) (Pure.pure a)
  bind {α β : Type} {x : Visit σ α} {y : Visit τ α} {f : α → Visit σ β} {g : α → Visit τ β} :
    Rel x y → (∀ a, Rel (f a) (g a)) → Rel (x >>= f) (y >>= g)
  emit (text : String) : Rel (Visit.emit text) (Visit.emit text)
  offer (h : Hook) (node : h.Node) : Rel (Visit.offer t h node) (Visit.offer t' h node)
  exhausted {α : Type} (y : Visit τ α) : Rel Visit.exhausted y

namespace Congruence

variable {σ τ α β : Type} {t : Transformer σ} {t' : Transformer τ} (C : Congruence t t')

theorem map (f : α → β) {x : Visit σ α} {y : Visit τ α} (h : C.Rel x y) :
    C.Rel (f <$> x) (f <$> y) :=
  C.bind h fun a => C.pure (f a)

/-! ## Lists -/

section Lists

variable {visit : α → Visit σ α} {visit' : α → Visit τ α} (h : ∀ a, C.Rel (visit a) (visit' a))
include h

theorem eachAfter (lead : String) (xs : List α) :
    C.Rel (Visit.eachAfter lead visit xs) (Visit.eachAfter lead visit' xs) := by
  induction xs with
  | nil => exact C.pure _
  | cons x xs ih =>
      exact C.bind (C.emit _) fun _ => C.bind (h x) fun _ => C.bind ih fun _ => C.pure _

theorem eachBetween (lead : String) (xs : List α) :
    C.Rel (Visit.eachBetween lead visit xs) (Visit.eachBetween lead visit' xs) := by
  cases xs with
  | nil => exact C.pure _
  | cons x xs => exact C.bind (h x) fun _ => C.bind (C.eachAfter h lead xs) fun _ => C.pure _

theorem eachOperand {ω : Type} (symbol : ω → String) (xs : List (ω × α)) :
    C.Rel (Visit.eachOperand symbol visit xs) (Visit.eachOperand symbol visit' xs) := by
  induction xs with
  | nil => exact C.pure _
  | cons x xs ih =>
      exact C.bind (C.emit _) fun _ => C.bind (h x.2) fun _ => C.bind ih fun _ => C.pure _

end Lists

/-! ## Expressions -/

section Layers

variable {visit : Factor → Visit σ Factor} {visit' : Factor → Visit τ Factor}
  (h : ∀ f, C.Rel (visit f) (visit' f))
include h

theorem termOver (x : Term) :
    C.Rel (Transform.termOver t visit x) (Transform.termOver t' visit' x) :=
  C.bind (C.offer _ _) fun _ => C.bind (h _) fun _ => C.bind (C.eachOperand h _ _) fun _ => C.pure _

theorem expressionOver (e : Expression) :
    C.Rel (Transform.expressionOver t visit e) (Transform.expressionOver t' visit' e) :=
  C.bind (C.offer _ _) fun _ => C.bind (C.termOver h _) fun _ =>
    C.bind (C.eachOperand (C.termOver h) _ _) fun _ => C.pure _

theorem comparisonOver (comparison : Option (RelOp × Expression)) :
    C.Rel (Transform.comparisonOver t visit comparison)
      (Transform.comparisonOver t' visit' comparison) := by
  cases comparison with
  | none => exact C.pure _
  | some comparison =>
      exact C.bind (C.emit _) fun _ => C.bind (C.expressionOver h _) fun _ => C.pure _

theorem relationOver (x : Relation) :
    C.Rel (Transform.relationOver t visit x) (Transform.relationOver t' visit' x) :=
  C.bind (C.offer _ _) fun _ => C.bind (C.expressionOver h _) fun _ =>
    C.bind (C.comparisonOver h _) fun _ => C.pure _

theorem clauseOver (c : Clause) :
    C.Rel (Transform.clauseOver t visit c) (Transform.clauseOver t' visit' c) :=
  C.bind (C.offer _ _) fun _ => C.bind (C.emit _) fun _ => C.bind (C.relationOver h _) fun _ =>
    C.pure _

theorem conjunctionOver (c : Conjunction) :
    C.Rel (Transform.conjunctionOver t visit c) (Transform.conjunctionOver t' visit' c) :=
  C.bind (C.offer _ _) fun _ => C.bind (C.clauseOver h _) fun _ =>
    C.bind (C.eachAfter (C.clauseOver h) _ _) fun _ => C.pure _

theorem conditionOver (c : Condition) :
    C.Rel (Transform.conditionOver t visit c) (Transform.conditionOver t' visit' c) :=
  C.bind (C.offer _ _) fun _ => C.bind (C.conjunctionOver h _) fun _ =>
    C.bind (C.eachAfter (C.conjunctionOver h) _ _) fun _ => C.pure _

theorem callOver (c : Call) :
    C.Rel (Transform.callOver t visit c) (Transform.callOver t' visit' c) :=
  C.bind (C.offer _ _) fun _ => C.bind (C.emit _) fun _ =>
    C.bind (C.eachBetween (C.expressionOver h) _ _) fun _ => C.bind (C.emit _) fun _ => C.pure _

theorem factorOver (f : Factor) :
    C.Rel (Transform.factorOver t visit f) (Transform.factorOver t' visit' f) := by
  refine C.bind (C.offer _ _) fun f => ?_
  cases f with
  | call c => exact C.bind (C.callOver h c) fun _ => C.pure _
  | group inner =>
      exact C.bind (C.emit _) fun _ => C.bind (C.conditionOver h inner) fun _ =>
        C.bind (C.emit _) fun _ => C.pure _
  | _ => exact C.bind (C.emit _) fun _ => C.pure _

end Layers

theorem factor {m n : Nat} (hmn : m ≤ n) (f : Factor) :
    C.Rel (Transform.factor t m f) (Transform.factor t' n f) := by
  induction m generalizing n f with
  | zero => exact C.exhausted _
  | succ m ih =>
      cases n with
      | zero => exact absurd hmn (Nat.not_succ_le_zero m)
      | succ n => exact C.factorOver (ih (Nat.le_of_succ_le_succ hmn)) f

/-! ## Statements -/

section Fuel

variable {m n : Nat} (hmn : m ≤ n)
include hmn

theorem expression (e : Expression) :
    C.Rel (Transform.expression t m e) (Transform.expression t' n e) :=
  C.expressionOver (C.factor hmn) e

theorem condition (c : Condition) :
    C.Rel (Transform.condition t m c) (Transform.condition t' n c) :=
  C.conditionOver (C.factor hmn) c

theorem bareDeclaration (d : Declaration) :
    C.Rel (Transform.bareDeclaration t m d) (Transform.bareDeclaration t' n d) :=
  C.bind (C.offer _ _) fun _ => C.bind (C.emit _) fun _ => C.bind (C.expression hmn _) fun _ =>
    C.pure _

theorem declaration (d : Declaration) :
    C.Rel (Transform.declaration t m d) (Transform.declaration t' n d) :=
  C.bind (C.emit _) fun _ => C.bareDeclaration hmn d

theorem assignment (a : Assignment) :
    C.Rel (Transform.assignment t m a) (Transform.assignment t' n a) :=
  C.bind (C.offer _ _) fun _ => C.bind (C.emit _) fun _ => C.bind (C.expression hmn _) fun _ =>
    C.pure _

theorem returnsWith (returns : Option Expression) :
    C.Rel (Transform.returnsWith t m returns) (Transform.returnsWith t' n returns) := by
  cases returns with
  | none => exact C.pure _
  | some value =>
      exact C.bind (C.emit _) fun _ => C.bind (C.expression hmn value) fun _ => C.pure _

section Bodies

variable {visit : Statement → Visit σ Statement} {visit' : Statement → Visit τ Statement}
  (h : ∀ s, C.Rel (visit s) (visit' s))
include h

theorem definitionOver (d : Definition) :
    C.Rel (Transform.definitionOver t visit m d) (Transform.definitionOver t' visit' n d) :=
  C.bind (C.offer _ _) fun _ => C.bind (C.emit _) fun _ => C.bind (C.eachAfter h _ _) fun _ =>
    C.bind (C.returnsWith hmn _) fun _ => C.bind (C.emit _) fun _ => C.pure _

theorem conditionalOver (c : Conditional) :
    C.Rel (Transform.conditionalOver t visit m c) (Transform.conditionalOver t' visit' n c) :=
  C.bind (C.offer _ _) fun _ => C.bind (C.emit _) fun _ => C.bind (C.condition hmn _) fun _ =>
    C.bind (C.emit _) fun _ => C.bind (C.eachAfter h _ _) fun _ => C.bind (C.emit _) fun _ =>
      C.pure _

theorem loopOver (l : Loop) :
    C.Rel (Transform.loopOver t visit m l) (Transform.loopOver t' visit' n l) :=
  C.bind (C.offer _ _) fun _ => C.bind (C.emit _) fun _ =>
    C.bind (C.bareDeclaration hmn _) fun _ => C.bind (C.emit _) fun _ =>
      C.bind (C.relationOver (C.factor hmn) _) fun _ => C.bind (C.emit _) fun _ =>
        C.bind (C.assignment hmn _) fun _ => C.bind (C.emit _) fun _ =>
          C.bind (C.eachAfter h _ _) fun _ => C.bind (C.emit _) fun _ => C.pure _

theorem statementOver (s : Statement) :
    C.Rel (Transform.statementOver t visit m s) (Transform.statementOver t' visit' n s) := by
  refine C.bind (C.offer _ _) fun s => ?_
  cases s with
  | definition d => exact C.map _ (C.definitionOver hmn h d)
  | declaration d => exact C.map _ (C.declaration hmn d)
  | assignment a => exact C.map _ (C.assignment hmn a)
  | conditional c => exact C.map _ (C.conditionalOver hmn h c)
  | loop l => exact C.map _ (C.loopOver hmn h l)
  | call c => exact C.map _ (C.callOver (C.factor hmn) c)

end Bodies

end Fuel

theorem statement {m n : Nat} (hmn : m ≤ n) (s : Statement) :
    C.Rel (Transform.statement t m s) (Transform.statement t' n s) := by
  induction m generalizing n s with
  | zero => exact C.exhausted _
  | succ m ih =>
      cases n with
      | zero => exact absurd hmn (Nat.not_succ_le_zero m)
      | succ n =>
          have hle := Nat.le_of_succ_le_succ hmn
          exact C.statementOver hle (ih hle) s

/-! ## Workflows and fragments -/

section Fuel

variable {m n : Nat} (hmn : m ≤ n)
include hmn

theorem action (a : Action) : C.Rel (Transform.action t m a) (Transform.action t' n a) := by
  have hline s : C.Rel (Transform.statementLine t m s) (Transform.statementLine t' n s) :=
    C.bind (C.statement hmn s) fun _ => C.bind (C.emit _) fun _ => C.pure _
  exact C.bind (C.emit _) fun _ => C.bind (C.eachAfter hline _ _) fun _ =>
    C.bind (C.emit _) fun _ => C.pure _

theorem guardWith (guard : Option Condition) :
    C.Rel (Transform.guardWith t m guard) (Transform.guardWith t' n guard) := by
  cases guard with
  | none => exact C.pure _
  | some guard =>
      exact C.bind (C.emit _) fun _ => C.bind (C.condition hmn guard) fun _ => C.pure _

theorem transition (x : Transition) :
    C.Rel (Transform.transition t m x) (Transform.transition t' n x) :=
  C.bind (C.emit _) fun _ => C.bind (C.guardWith hmn _) fun _ => C.bind (C.emit _) fun _ =>
    C.pure _

theorem node (x : Node) : C.Rel (Transform.node t m x) (Transform.node t' n x) :=
  C.bind (C.emit _) fun _ => C.bind (C.eachAfter (C.action hmn) _ _) fun _ =>
    C.bind (C.eachAfter (C.transition hmn) _ _) fun _ => C.bind (C.emit _) fun _ => C.pure _

theorem workflow (w : Workflow) :
    C.Rel (Transform.workflow t m w) (Transform.workflow t' n w) :=
  C.bind (C.emit _) fun _ => C.bind (C.eachAfter (C.node hmn) _ _) fun _ =>
    C.bind (C.emit _) fun _ => C.pure _

theorem transform (f : Fragment) : C.Rel (f.transform t m) (f.transform t' n) := by
  cases f with
  | workflow w => exact C.map _ (C.workflow hmn w)
  | node n => exact C.map _ (C.node hmn n)
  | action a => exact C.map _ (C.action hmn a)
  | transition x => exact C.map _ (C.transition hmn x)
  | script ss => exact C.map _ (C.eachBetween (C.statement hmn) _ ss)
  | statement s => exact C.map _ (C.statement hmn s)
  | definition d => exact C.map _ (C.definitionOver hmn (C.statement hmn) d)
  | call c => exact C.map _ (C.callOver (C.factor hmn) c)
  | declaration d => exact C.map _ (C.declaration hmn d)
  | assignment a => exact C.map _ (C.assignment hmn a)
  | conditional c => exact C.map _ (C.conditionalOver hmn (C.statement hmn) c)
  | loop l => exact C.map _ (C.loopOver hmn (C.statement hmn) l)
  | condition c => exact C.map _ (C.condition hmn c)
  | conjunction c => exact C.map _ (C.conjunctionOver (C.factor hmn) c)
  | clause c => exact C.map _ (C.clauseOver (C.factor hmn) c)
  | relation x => exact C.map _ (C.relationOver (C.factor hmn) x)
  | expression e => exact C.map _ (C.expression hmn e)
  | term x => exact C.map _ (C.termOver (C.factor hmn) x)
  | factor x => exact C.map _ (C.factor hmn x)

end Fuel

end Congruence

end WorkflowScript.Visit
