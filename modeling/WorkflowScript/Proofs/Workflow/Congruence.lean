import WorkflowScript.Grammar.Counting
import WorkflowScript.Proofs.Parser.Congruence

/-!
# Relations that productions keep

Every production puts its parts together in ways that a congruence keeps, so
related parts make related productions. That holds for one turn of the
recursive rules, too (`Rules.Related.turn`): what is wrapped around the nested
parts may turn one congruence into another, and is all that tells the ways
of tying the rules together apart.
-/

namespace WorkflowScript

open WorkflowScript.Grammar

namespace Parser.QuietCongruence

variable {σ τ α : Type} [TokenSource σ] [TokenSource τ] (C : QuietCongruence σ τ)

/-! ## Expressions -/

section Layers

variable {p : Parser σ Factor} {q : Parser τ Factor} (h : C.Rel p q)

include h

theorem termOf : C.Rel (Grammar.termOf p) (Grammar.termOf q) :=
  C.bind h fun _ => C.bind (C.chain h _) fun _ => C.pure _

theorem expressionOf : C.Rel (Grammar.expressionOf p) (Grammar.expressionOf q) :=
  C.bind (C.termOf h) fun _ => C.bind (C.chain (C.termOf h) _) fun _ => C.pure _

theorem relationOf : C.Rel (Grammar.relationOf p) (Grammar.relationOf q) := by
  refine C.bind (C.expressionOf h) fun _ => C.bind C.peek fun k => ?_
  cases relOp? k with
  | none => exact C.pure _
  | some op => exact C.bind C.advance fun _ => C.bind (C.expressionOf h) fun _ => C.pure _

theorem clauseOf : C.Rel (Grammar.clauseOf p) (Grammar.clauseOf q) :=
  C.bind (C.accept _) fun _ => C.bind (C.relationOf h) fun _ => C.pure _

theorem conjunctionOf : C.Rel (Grammar.conjunctionOf p) (Grammar.conjunctionOf q) :=
  C.bind (C.clauseOf h) fun _ => C.bind (C.chainOn (C.clauseOf h) _) fun _ => C.pure _

theorem conditionOf : C.Rel (Grammar.conditionOf p) (Grammar.conditionOf q) :=
  C.bind (C.conjunctionOf h) fun _ => C.bind (C.chainOn (C.conjunctionOf h) _) fun _ => C.pure _

theorem argumentsOf : C.Rel (Grammar.argumentsOf p) (Grammar.argumentsOf q) :=
  C.bracketed (C.expressionOf h)

theorem groupOf : C.Rel (Grammar.groupOf p) (Grammar.groupOf q) :=
  C.bind (C.expect _) fun _ => C.bind (C.conditionOf h) fun _ => C.bind (C.expect _) fun _ =>
    C.pure _

theorem assignedValueOf : C.Rel (assignedValueWith (Grammar.expressionOf p))
    (assignedValueWith (Grammar.expressionOf q)) :=
  C.bind (C.expect _) fun _ => C.expressionOf h

end Layers

section Parts

variable {arguments : Parser σ (List Expression)} {arguments' : Parser τ (List Expression)}
  (harguments : C.Rel arguments arguments')

include harguments

theorem callTail (name : Token) :
    C.Rel (Grammar.callTail arguments name) (Grammar.callTail arguments' name) :=
  C.bind harguments fun _ => C.pure _

theorem callWith : C.Rel (Grammar.callWith arguments) (Grammar.callWith arguments') :=
  C.bind (C.expect _) fun _ => C.callTail harguments _

theorem factorOf {group : Parser σ Condition} {group' : Parser τ Condition}
    (hgroup : C.Rel group group') :
    C.Rel (Grammar.factorOf arguments group) (Grammar.factorOf arguments' group') := by
  refine C.bind C.peek fun k => ?_
  split
  · refine C.bind C.advance fun name => C.bind C.peek fun k' => ?_
    split
    · exact C.bind (C.callTail harguments name) fun _ => C.pure _
    · exact C.pure _
  · exact C.bind C.advance fun _ => C.pure _
  · exact C.bind C.advance fun _ => C.pure _
  · exact C.bind C.advance fun _ => C.pure _
  · exact C.bind C.advance fun _ => C.pure _
  · exact C.bind hgroup fun _ => C.pure _
  · exact C.unexpected _

theorem namedStatementWith {value : Parser σ Expression} {value' : Parser τ Expression}
    (hvalue : C.Rel value value') :
    C.Rel (Grammar.namedStatementWith arguments value)
      (Grammar.namedStatementWith arguments' value') := by
  refine C.bind (C.expect _) fun name => C.bind C.peek fun k => ?_
  split
  · exact C.bind (C.callTail harguments name) fun _ => C.pure _
  · exact C.bind hvalue fun _ => C.pure _
  · exact C.unexpected _

end Parts

/-! ## Statements -/

theorem declarationFrom {keyword : Parser σ α} {keyword' : Parser τ α}
    {value : Parser σ Expression} {value' : Parser τ Expression}
    (hkeyword : C.Rel keyword keyword') (hvalue : C.Rel value value') :
    C.Rel (Grammar.declarationFrom keyword value) (Grammar.declarationFrom keyword' value') :=
  C.bind C.place fun _ => C.bind hkeyword fun _ => C.bind (C.expect _) fun _ =>
    C.bind hvalue fun _ => C.pure _

theorem statementWith {declaration : Parser σ Declaration} {declaration' : Parser τ Declaration}
    {named : Parser σ Statement} {named' : Parser τ Statement}
    {definition : Parser σ Definition} {definition' : Parser τ Definition}
    {conditional : Parser σ Conditional} {conditional' : Parser τ Conditional}
    {loop : Parser σ Loop} {loop' : Parser τ Loop}
    (hdeclaration : C.Rel declaration declaration') (hnamed : C.Rel named named')
    (hdefinition : C.Rel definition definition') (hconditional : C.Rel conditional conditional')
    (hloop : C.Rel loop loop') :
    C.Rel (Grammar.statementWith declaration named definition conditional loop)
      (Grammar.statementWith declaration' named' definition' conditional' loop') := by
  refine C.bind C.peek fun k => ?_
  split
  · exact C.map _ hdefinition
  · exact C.map _ hdeclaration
  · exact C.map _ hconditional
  · exact C.map _ hloop
  · exact hnamed
  · exact C.unexpected _

section Bodies

variable {p : Parser σ Statement} {q : Parser τ Statement} (h : C.Rel p q)

include h

theorem statementsUntil (closers : List TokenKind) :
    C.Rel (Grammar.statementsUntil p closers) (Grammar.statementsUntil q closers) := by
  refine C.repeatUntil (C.bind C.peek fun k => ?_) _
  split
  · exact C.unexpected _
  · exact h

theorem blockOf : C.Rel (Grammar.blockOf p) (Grammar.blockOf q) :=
  C.bind (C.statementsUntil h _) fun _ => C.bind (C.expect _) fun _ => C.pure _

theorem definitionWith {returned : Parser σ Expression} {returned' : Parser τ Expression}
    (hreturned : C.Rel returned returned') :
    C.Rel (Grammar.definitionWith p returned) (Grammar.definitionWith q returned') := by
  have hparameter : C.Rel parameter parameter := C.bind (C.expect _) fun _ => C.pure _
  refine C.bind (C.expect _) fun _ => C.bind (C.expect _) fun _ =>
    C.bind (C.bracketed hparameter) fun _ => C.bind (C.statementsUntil h _) fun _ =>
    C.bind (C.accept _) fun found => ?_
  cases found with
  | true => exact C.bind (C.map _ hreturned) fun _ => C.bind (C.expect _) fun _ => C.pure _
  | false => exact C.bind (C.pure _) fun _ => C.bind (C.expect _) fun _ => C.pure _

theorem conditionalWith {condition : Parser σ Condition} {condition' : Parser τ Condition}
    (hcondition : C.Rel condition condition') :
    C.Rel (Grammar.conditionalWith p condition) (Grammar.conditionalWith q condition') :=
  C.bind (C.expect _) fun _ => C.bind hcondition fun _ => C.bind (C.expect _) fun _ =>
    C.bind (C.blockOf h) fun _ => C.pure _

theorem loopWith {init : Parser σ Declaration} {init' : Parser τ Declaration}
    {condition : Parser σ Relation} {condition' : Parser τ Relation}
    {step : Parser σ Assignment} {step' : Parser τ Assignment}
    (hinit : C.Rel init init') (hcondition : C.Rel condition condition')
    (hstep : C.Rel step step') :
    C.Rel (Grammar.loopWith p init condition step) (Grammar.loopWith q init' condition' step') :=
  C.bind (C.expect _) fun _ => C.bind hinit fun _ => C.bind (C.expect _) fun _ =>
    C.bind hcondition fun _ => C.bind (C.expect _) fun _ => C.bind hstep fun _ =>
    C.bind (C.expect _) fun _ => C.bind (C.blockOf h) fun _ => C.pure _

end Bodies

/-! ## Workflows -/

theorem announced (read? : TokenKind → Option α) (expected : List TokenKind) :
    C.Rel (Grammar.announced read? expected) (Grammar.announced read? expected) := by
  refine C.bind C.peek fun k => ?_
  cases read? k with
  | none => exact C.unexpected _
  | some value => exact C.bind C.advance fun _ => C.pure _

theorem actionWith {p : Parser σ (List Statement)} {q : Parser τ (List Statement)}
    (h : C.Rel p q) : C.Rel (Grammar.actionWith p) (Grammar.actionWith q) :=
  C.bind (C.announced _ _) fun _ => C.bind h fun _ => C.pure _

theorem transitionWith {p : Parser σ Condition} {q : Parser τ Condition} (h : C.Rel p q) :
    C.Rel (Grammar.transitionWith p) (Grammar.transitionWith q) := by
  refine C.bind (C.expect _) fun _ => C.bind (C.expect _) fun _ => C.bind (C.expect _) fun _ =>
    C.bind (C.accept _) fun found => ?_
  cases found with
  | true => exact C.bind (C.map _ h) fun _ => C.pure _
  | false => exact C.bind (C.pure _) fun _ => C.pure _

theorem memberWith {action : Parser σ Action} {action' : Parser τ Action}
    {transition : Parser σ Transition} {transition' : Parser τ Transition}
    (haction : C.Rel action action') (htransition : C.Rel transition transition') :
    C.Rel (Grammar.memberWith action transition) (Grammar.memberWith action' transition') := by
  refine C.bind C.peek fun k => ?_
  split
  · exact C.map _ haction
  · exact C.map _ haction
  · exact C.map _ htransition
  · exact C.unexpected _

end Parser.QuietCongruence

namespace Parser.Congruence

variable {σ τ : Type} [TokenSource σ] [TokenSource τ] (C : Congruence σ τ)

/-! Nodes and workflows are reported. -/

theorem nodeWith {p : Parser σ Member} {q : Parser τ Member} (h : C.Rel p q) :
    C.Rel (Grammar.nodeWith p) (Grammar.nodeWith q) :=
  C.bind (C.announced _ _) fun _ => C.bind (C.expect _) fun _ =>
    C.bind (C.repeatUntil h _) fun _ => C.bind (C.expect _) fun _ => C.bind (C.notify _) fun _ =>
    C.pure _

theorem workflowWith {p : Parser σ Node} {q : Parser τ Node} (h : C.Rel p q) :
    C.Rel (Grammar.workflowWith (nodeOrEndWith p)) (Grammar.workflowWith (nodeOrEndWith q)) := by
  refine C.bind (C.expect _) fun _ => C.bind (C.expect _) fun _ =>
    C.bind (C.repeatUntil (C.bind C.peek fun k => ?_) _) fun _ => C.bind (C.expect _) fun _ =>
    C.bind (C.notify _) fun _ => C.pure _
  cases NodeKind.ofKeyword? k with
  | none => exact C.unexpected _
  | some _ => exact h

end Parser.Congruence

/-! ## The recursive rules -/

namespace Grammar

open WorkflowScript.Parser

variable {σ τ : Type} [TokenSource σ] [TokenSource τ]

/-- All recursive rules are related to those on the other side. -/
structure Rules.QuietlyRelated (C : QuietCongruence σ τ) (r : Rules σ) (q : Rules τ) : Prop where
  factor : C.Rel r.factor q.factor
  arguments : C.Rel r.arguments q.arguments
  statement : C.Rel r.statement q.statement

/-- The same for a congruence, which takes reports as well. -/
abbrev Rules.Related (C : Congruence σ τ) (r : Rules σ) (q : Rules τ) : Prop :=
  r.QuietlyRelated C.toQuietCongruence q

namespace Rules.QuietlyRelated

section Productions

variable {C : QuietCongruence σ τ} {r : Rules σ} {q : Rules τ} (h : r.QuietlyRelated C q)

include h

theorem value : C.Rel r.value q.value := C.assignedValueOf h.factor

theorem assignment : C.Rel r.assignment q.assignment :=
  C.bind (C.expect _) fun _ => C.bind h.value fun _ => C.pure _

theorem declaration : C.Rel r.declaration q.declaration :=
  C.declarationFrom (C.expect _) h.value

theorem bareDeclaration : C.Rel r.bareDeclaration q.bareDeclaration :=
  C.declarationFrom (C.accept _) h.value

theorem definition : C.Rel r.definition q.definition :=
  C.definitionWith h.statement (C.expressionOf h.factor)

theorem conditional : C.Rel r.conditional q.conditional :=
  C.conditionalWith h.statement (C.conditionOf h.factor)

theorem loop : C.Rel r.loop q.loop :=
  C.loopWith h.statement h.bareDeclaration (C.relationOf h.factor) h.assignment

theorem action : C.Rel r.action q.action := C.actionWith (C.blockOf h.statement)

theorem transition : C.Rel r.transition q.transition := C.transitionWith (C.conditionOf h.factor)

theorem member : C.Rel (memberWith r.action r.transition) (memberWith q.action q.transition) :=
  C.memberWith h.action h.transition

end Productions

/-- One turn of the rules. Inside the nested parts the relation may be
another one than outside. -/
theorem turn {C D : QuietCongruence σ τ} {r : Rules σ} {q : Rules τ} (h : r.QuietlyRelated C q)
    {nest : {α : Type} → Parser σ α → Parser σ α}
    {nest' : {α : Type} → Parser τ α → Parser τ α}
    (hnest : ∀ {α : Type} {p : Parser σ α} {q : Parser τ α},
      C.Rel p q → D.Rel (nest p) (nest' q)) :
    (Rules.turn nest r).QuietlyRelated D (Rules.turn nest' q) := by
  have harguments := hnest (C.argumentsOf h.factor)
  have hfactor := D.factorOf harguments (hnest (C.groupOf h.factor))
  have hvalue := D.assignedValueOf hfactor
  exact ⟨hfactor, harguments, D.statementWith (D.declarationFrom (D.expect _) hvalue)
    (D.namedStatementWith harguments hvalue) (hnest h.definition) (hnest h.conditional)
    (hnest h.loop)⟩

end Rules.QuietlyRelated

namespace Rules.Related

variable {C : Congruence σ τ} {r : Rules σ} {q : Rules τ} (h : r.Related C q)

include h

theorem node : C.Rel r.node q.node := C.nodeWith h.member

theorem workflow : C.Rel r.workflow q.workflow := C.workflowWith h.node

/-- Every production is related to its counterpart if the recursive rules are. -/
theorem production (p : Production) : C.Rel (r.production p) (q.production p) :=
  match p with
  | .workflow => C.map _ h.workflow
  | .node => C.map _ h.node
  | .action => C.map _ h.action
  | .transition => C.map _ h.transition
  | .script => C.map _ (C.repeatUntil h.statement _)
  | .statement => C.map _ h.statement
  | .definition => C.map _ h.definition
  | .call => C.map _ (C.callWith h.arguments)
  | .declaration => C.map _ h.declaration
  | .bareDeclaration => C.map _ h.bareDeclaration
  | .assignment => C.map _ h.assignment
  | .conditional => C.map _ h.conditional
  | .loop => C.map _ h.loop
  | .condition => C.map _ (C.conditionOf h.factor)
  | .conjunction => C.map _ (C.conjunctionOf h.factor)
  | .clause => C.map _ (C.clauseOf h.factor)
  | .relation => C.map _ (C.relationOf h.factor)
  | .expression => C.map _ (C.expressionOf h.factor)
  | .term => C.map _ (C.termOf h.factor)
  | .factor => C.map _ h.factor

end Rules.Related

end Grammar

end WorkflowScript
