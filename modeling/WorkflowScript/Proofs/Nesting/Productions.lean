import WorkflowScript.Proofs.Nesting.Tracking

/-!
# The counter of every production is the count

One lemma for each production. Expressions leave the surroundings as they
find them, and so do statements. What stands inside a construct is tracked
one level further down than the construct, so one turn of the recursive rules
raises the number (`Rules.Tracks.turn`), and there are more turns than levels
(`tracks_recordingRules`).
-/

namespace WorkflowScript

open WorkflowScript.Parser WorkflowScript.Grammar

variable {σ α : Type} [TokenSource σ]

/-! ## Operators -/

namespace Surroundings

theorem inert_mulOp {κ : TokenKind} {op : MulOp} (h : mulOp? κ = some op) : inert κ = true := by
  cases κ <;> first | rfl | cases h

theorem inert_addOp {κ : TokenKind} {op : AddOp} (h : addOp? κ = some op) : inert κ = true := by
  cases κ <;> first | rfl | cases h

theorem inert_relOp {κ : TokenKind} {op : RelOp} (h : relOp? κ = some op) : inert κ = true := by
  cases κ <;> first | rfl | cases h

theorem inert_nodeKind {κ : TokenKind} {kind : NodeKind}
    (h : NodeKind.ofKeyword? κ = some kind) : inert κ = true := by
  cases κ <;> first | rfl | cases h

theorem enter_or_leave {κ : TokenKind} {phase : Phase} (h : Phase.ofKeyword? κ = some phase) :
    κ = .kwEnter ∨ κ = .kwLeave := by
  cases κ <;> first | exact .inl rfl | exact .inr rfl | cases h

end Surroundings

namespace Parser.Tracks

open Surroundings

variable {k : Nat} {s : Surroundings} {start : TokenKind → Prop} {Q : Surroundings → Prop}

/-- The token that opens a construct. -/
theorem opener {κ : TokenKind} {s' : Surroundings} (hs : s.Inside k) (hopens : s.Opens κ)
    (hstep : s.step κ = s') :
    Tracks (k + 1) s start (Parser.expect κ : Parser (Recorded σ) Token) (· = s') :=
  .expect hopens.kind_ne (hs.count_of_opens hopens) hstep

/-! ## Expressions -/

section Layers

variable {factor : Parser (Recorded σ) Factor} (htotal : s.total = k)
  (hfactor : Tracks k s anywhere factor (· = s))

include htotal hfactor

theorem termOf : Tracks k s anywhere (Grammar.termOf factor) (· = s) :=
  hfactor.seq fun _ => (chain (fun _ _ => inert_mulOp) htotal hfactor).seq fun _ => .pure _ rfl

theorem expressionOf : Tracks k s anywhere (Grammar.expressionOf factor) (· = s) :=
  have hterm := termOf htotal hfactor
  hterm.seq fun _ => (chain (fun _ _ => inert_addOp) htotal hterm).seq fun _ => .pure _ rfl

theorem relationOf : Tracks k s anywhere (Grammar.relationOf factor) (· = s) := by
  have hexpression := expressionOf htotal hfactor
  refine hexpression.seq fun left => .peek fun κ _ => ?_
  cases hκ : relOp? κ with
  | none => exact .pure _ rfl
  | some op =>
      exact (advance_inert (inert_relOp hκ) htotal).seq fun _ => hexpression.seq fun _ =>
        .pure _ rfl

theorem clauseOf : Tracks k s anywhere (Grammar.clauseOf factor) (· = s) :=
  (accept_inert rfl htotal).seq fun _ => (relationOf htotal hfactor).seq fun _ => .pure _ rfl

theorem conjunctionOf : Tracks k s anywhere (Grammar.conjunctionOf factor) (· = s) :=
  have hclause := clauseOf htotal hfactor
  hclause.seq fun _ => (chainOn rfl htotal hclause).seq fun _ => .pure _ rfl

theorem conditionOf : Tracks k s anywhere (Grammar.conditionOf factor) (· = s) :=
  have hconjunction := conjunctionOf htotal hfactor
  hconjunction.seq fun _ => (chainOn rfl htotal hconjunction).seq fun _ => .pure _ rfl

theorem assignedValueOf :
    Tracks k s anywhere (assignedValueWith (Grammar.expressionOf factor)) (· = s) :=
  (expect_inert rfl htotal).seq fun _ => expressionOf htotal hfactor

end Layers

/-- Items in brackets, with the surroundings behind each of the two. -/
theorem bracketed {s₁ s₂ : Surroundings} {item : Parser (Recorded σ) α}
    (hcount : s.count .leftParen = k) (hopen : s.step .leftParen = s₁) (htotal : s₁.total = k)
    (hclose : s₁.step .rightParen = s₂) (hitem : Tracks k s₁ anywhere item (· = s₁)) :
    Tracks k s start (Parser.bracketed item) (· = s₂) := by
  have hclosed := (count_rightParen s₁).trans htotal
  refine (expect (by decide) hcount hopen).seq fun _ => .acceptThen (by decide) hclosed ?_ ?_
  · exact .pure _ hclose
  · exact hitem.seq fun _ => (chainOn rfl htotal hitem).seq fun _ =>
      (expect (by decide) hclosed hclose).seq fun _ => .pure _ rfl

section Brackets

variable (hs : s.Inside k) {factor : Parser (Recorded σ) Factor}
  (hfactor : ∀ s, s.Inside (k + 1) → Tracks (k + 1) s anywhere factor (· = s))

include hs hfactor

theorem argumentsOf : Tracks (k + 1) s start (Grammar.argumentsOf factor) (· = s) :=
  bracketed (hs.count_of_opens (k := .leftParen) hs.heading_eq) (step_leftParen hs.heading_eq)
    hs.inBracket.total_eq rfl (expressionOf hs.inBracket.total_eq (hfactor _ hs.inBracket))

theorem groupOf : Tracks (k + 1) s start (Grammar.groupOf factor) (· = s) :=
  have htotal := hs.inBracket.total_eq
  (opener (κ := .leftParen) hs hs.heading_eq (step_leftParen hs.heading_eq)).seq fun _ =>
    (conditionOf htotal (hfactor _ hs.inBracket)).seq fun _ =>
    (expect (by decide) ((count_rightParen _).trans htotal) rfl).seq fun _ => .pure _ rfl

end Brackets

section Parts

variable {arguments : Parser (Recorded σ) (List Expression)} (htotal : s.total = k)
  (harguments : Tracks k s (· = .leftParen) arguments (· = s))

include harguments

theorem callTail (name : Token) :
    Tracks k s (· = .leftParen) (Grammar.callTail arguments name) (· = s) :=
  harguments.seq fun _ => .pure _ rfl

include htotal

theorem factorOf {group : Parser (Recorded σ) Condition}
    (hgroup : Tracks k s (· = .leftParen) group (· = s)) :
    Tracks k s anywhere (Grammar.factorOf arguments group) (· = s) := by
  refine .peek fun κ _ => ?_
  split
  · refine (advance_inert rfl htotal).seq fun name => .peek fun κ' _ => ?_
    split
    · rename_i h
      subst h
      exact (callTail harguments name).seq fun _ => .pure _ rfl
    · exact .pure _ rfl
  · exact (advance_inert rfl htotal).seq fun _ => .pure _ rfl
  · exact (advance_inert rfl htotal).seq fun _ => .pure _ rfl
  · exact (advance_inert rfl htotal).seq fun _ => .pure _ rfl
  · exact (advance_inert rfl htotal).seq fun _ => .pure _ rfl
  · exact hgroup.seq fun _ => .pure _ rfl
  · exact .unexpected nofun

theorem namedStatementWith {value : Parser (Recorded σ) Expression}
    (hvalue : Tracks k s anywhere value (· = s)) :
    Tracks k s anywhere (Grammar.namedStatementWith arguments value) (· = s) := by
  refine (expect_inert rfl htotal).seq fun name => .peek fun κ _ => ?_
  split
  · exact (callTail harguments name).seq fun _ => .pure _ rfl
  · exact (hvalue.narrow fun _ => trivial).seq fun _ => .pure _ rfl
  · exact .unexpected nofun

end Parts

/-! ## Statements -/

theorem declarationFrom {keyword : Parser (Recorded σ) α} {value : Parser (Recorded σ) Expression}
    (htotal : s.total = k) (hkeyword : Tracks k s anywhere keyword (· = s))
    (hvalue : Tracks k s anywhere value (· = s)) :
    Tracks k s anywhere (Grammar.declarationFrom keyword value) (· = s) :=
  place.seq fun _ => hkeyword.seq fun _ => (expect_inert rfl htotal).seq fun _ =>
    hvalue.seq fun _ => .pure _ rfl

section Bodies

variable {statement : Parser (Recorded σ) Statement}
  (hstatement : ∀ s, s.Between k → Tracks k s anywhere statement (· = s))

include hstatement

theorem statementsUntil (hs : s.Between k) (closers : List TokenKind) :
    Tracks k s anywhere (Grammar.statementsUntil statement closers) (· = s) := by
  refine .repeatUntil (fun s' h => ?_) rfl
  subst h
  refine .peek fun κ _ => ?_
  split
  · exact .unexpected nofun
  · exact (hstatement _ hs).narrow fun _ => trivial

theorem blockOf (hs : s.Between k) :
    Tracks k s anywhere (Grammar.blockOf statement) (· = s.step .kwEnd) :=
  (statementsUntil hstatement hs _).seq fun _ =>
    (expect (by decide) ((count_kwEnd s).trans hs.total_eq) rfl).seq fun _ => .pure _ rfl

end Bodies

/-- The parameters of a definition, brackets included. -/
theorem parameters (hs : s.Between k) : Tracks (k + 1) s.inHead anywhere
    (Parser.bracketed parameter : Parser (Recorded σ) (List String)) (· = s.inBody) := by
  have hbody := hs.inBody
  have hparameter : Tracks (k + 1) s.inBody anywhere
      (parameter : Parser (Recorded σ) String) (· = s.inBody) :=
    (expect_inert rfl hbody.total_eq).seq fun _ => .pure _ rfl
  exact bracketed hs.count_inHead hs.step_inHead hbody.total_eq hbody.step_rightParen hparameter

section Nested

variable (hs : s.Between k) {statement : Parser (Recorded σ) Statement}
  (hstatement : ∀ s, s.Between (k + 1) → Tracks (k + 1) s anywhere statement (· = s))

include hs hstatement

theorem definitionWith {returned : Parser (Recorded σ) Expression}
    (hreturned : Tracks (k + 1) s.inBody anywhere returned (· = s.inBody)) :
    Tracks (k + 1) s start (Grammar.definitionWith statement returned) (· = s) := by
  have hbody := hs.inBody
  have htotal := hbody.total_eq
  have hhead : s.inHead.total = k + 1 := htotal
  have hclosed := (count_kwEnd _).trans htotal
  refine (opener (κ := .kwDef) hs.toInside trivial rfl).seq fun start =>
    (expect_inert rfl hhead).seq fun name => (parameters hs).seq fun params =>
    (statementsUntil hstatement hbody _).seq fun body =>
    (accept_inert rfl htotal).seq fun found => ?_
  cases found with
  | true =>
      exact (hreturned.map some).seq fun _ => (expect (by decide) hclosed rfl).seq fun _ =>
        .pure _ rfl
  | false =>
      have hnone : Tracks (k + 1) s.inBody anywhere
          (pure none : Parser (Recorded σ) (Option Expression)) (· = s.inBody) := .pure _ rfl
      exact hnone.seq fun _ => (expect (by decide) hclosed rfl).seq fun _ => .pure _ rfl

theorem conditionalWith {condition : Parser (Recorded σ) Condition}
    (hcondition : Tracks (k + 1) s.inBody anywhere condition (· = s.inBody)) :
    Tracks (k + 1) s start (Grammar.conditionalWith statement condition) (· = s) :=
  (opener (κ := .kwIf) hs.toInside hs.guarding_eq (step_kwIf hs.guarding_eq)).seq fun _ =>
    hcondition.seq fun _ => (expect_inert rfl hs.inBody.total_eq).seq fun _ =>
    (blockOf hstatement hs.inBody).seq fun _ => .pure _ rfl

theorem loopWith {init : Parser (Recorded σ) Declaration}
    {condition : Parser (Recorded σ) Relation} {step : Parser (Recorded σ) Assignment}
    (hinit : Tracks (k + 1) s.inBody anywhere init (· = s.inBody))
    (hcondition : Tracks (k + 1) s.inBody anywhere condition (· = s.inBody))
    (hstep : Tracks (k + 1) s.inBody anywhere step (· = s.inBody)) :
    Tracks (k + 1) s start (Grammar.loopWith statement init condition step) (· = s) := by
  have htotal := hs.inBody.total_eq
  exact (opener (κ := .kwFor) hs.toInside trivial rfl).seq fun _ =>
    hinit.seq fun _ =>
    (expect_inert rfl htotal).seq fun _ => hcondition.seq fun _ =>
    (expect_inert rfl htotal).seq fun _ => hstep.seq fun _ => (expect_inert rfl htotal).seq fun _ =>
    (blockOf hstatement hs.inBody).seq fun _ => .pure _ rfl

end Nested

theorem statementWith {declaration : Parser (Recorded σ) Declaration}
    {named : Parser (Recorded σ) Statement} {definition : Parser (Recorded σ) Definition}
    {conditional : Parser (Recorded σ) Conditional} {loop : Parser (Recorded σ) Loop}
    (hdeclaration : Tracks k s anywhere declaration (· = s))
    (hnamed : Tracks k s anywhere named (· = s))
    (hdefinition : Tracks k s (· = .kwDef) definition (· = s))
    (hconditional : Tracks k s (· = .kwIf) conditional (· = s))
    (hloop : Tracks k s (· = .kwFor) loop (· = s)) :
    Tracks k s anywhere
      (Grammar.statementWith declaration named definition conditional loop) (· = s) := by
  refine .peek fun κ _ => ?_
  split
  · exact hdefinition.map _
  · exact (hdeclaration.narrow fun _ => trivial).map _
  · exact hconditional.map _
  · exact hloop.map _
  · exact hnamed.narrow fun _ => trivial
  · exact .unexpected nofun

end Parser.Tracks

/-! ## The recursive rules -/

namespace Grammar

/-- The recursive rules are tracked wherever they may stand within `k`
constructs, and leave the surroundings as they find them. -/
structure Rules.Tracks (k : Nat) (r : Rules (Recorded σ)) : Prop where
  factor : ∀ s, s.Inside k → Parser.Tracks k s anywhere r.factor (· = s)
  arguments : ∀ s, s.Inside k → Parser.Tracks k s (· = .leftParen) r.arguments (· = s)
  statement : ∀ s, s.Between k → Parser.Tracks k s anywhere r.statement (· = s)

namespace Rules.Tracks

variable {k : Nat} {s : Surroundings} {start : TokenKind → Prop} {r : Rules (Recorded σ)}

section Parts

variable (h : r.Tracks k)

include h

theorem value (hs : s.Inside k) : Parser.Tracks k s anywhere r.value (· = s) :=
  .assignedValueOf hs.total_eq (h.factor s hs)

theorem assignment (hs : s.Inside k) : Parser.Tracks k s anywhere r.assignment (· = s) :=
  (Tracks.expect_inert rfl hs.total_eq).seq fun _ => (h.value hs).seq fun _ => .pure _ rfl

theorem bareDeclaration (hs : s.Inside k) :
    Parser.Tracks k s anywhere r.bareDeclaration (· = s) :=
  .declarationFrom hs.total_eq (.accept_inert rfl hs.total_eq) (h.value hs)

theorem condition (hs : s.Inside k) :
    Parser.Tracks k s anywhere (conditionOf r.factor) (· = s) :=
  .conditionOf hs.total_eq (h.factor s hs)

end Parts

section Nested

variable (h : r.Tracks (k + 1)) (hs : s.Between k)

include h hs

theorem definition : Parser.Tracks (k + 1) s start r.definition (· = s) :=
  have hbody := hs.inBody.toInside
  .definitionWith hs h.statement (.expressionOf hbody.total_eq (h.factor _ hbody))

theorem conditional : Parser.Tracks (k + 1) s start r.conditional (· = s) :=
  .conditionalWith hs h.statement (h.condition hs.inBody.toInside)

theorem loop : Parser.Tracks (k + 1) s start r.loop (· = s) :=
  have hbody := hs.inBody.toInside
  .loopWith hs h.statement (h.bareDeclaration hbody)
    (.relationOf hbody.total_eq (h.factor _ hbody)) (h.assignment hbody)

end Nested

/-- One turn of the rules: their nested parts are one level further down, if
there is one. -/
theorem turn (h : k < maxNesting → r.Tracks (k + 1)) :
    (Rules.turn recordedNested r).Tracks k := by
  have harguments (s : Surroundings) (hs : s.Inside k) :
      Parser.Tracks k s (· = .leftParen) (recordedNested (argumentsOf r.factor)) (· = s) :=
    .nested hs.total_eq (fun _ hκ => hκ ▸ hs.heading_eq) fun hfree =>
      .argumentsOf hs (h hfree).factor
  have hgroup (s : Surroundings) (hs : s.Inside k) :
      Parser.Tracks k s (· = .leftParen) (recordedNested (groupOf r.factor)) (· = s) :=
    .nested hs.total_eq (fun _ hκ => hκ ▸ hs.heading_eq) fun hfree =>
      .groupOf hs (h hfree).factor
  have hfactor (s : Surroundings) (hs : s.Inside k) :=
    Tracks.factorOf hs.total_eq (harguments s hs) (hgroup s hs)
  refine ⟨hfactor, harguments, fun s hs => ?_⟩
  have hinside := hs.toInside
  have hvalue := Tracks.assignedValueOf hinside.total_eq (hfactor s hinside)
  refine .statementWith
    (.declarationFrom hinside.total_eq (.expect_inert rfl hinside.total_eq) hvalue)
    (.namedStatementWith hinside.total_eq (harguments s hinside) hvalue) ?_ ?_ ?_
  · exact .nested hs.total_eq (fun _ hκ => hκ ▸ trivial) fun hfree => (h hfree).definition hs
  · exact .nested hs.total_eq (fun _ hκ => hκ ▸ hs.guarding_eq) fun hfree =>
      (h hfree).conditional hs
  · exact .nested hs.total_eq (fun _ hκ => hκ ▸ trivial) fun hfree => (h hfree).loop hs

end Rules.Tracks

/-- With more turns than free levels the turns do not run out. -/
theorem tracks_recordingTurns {k : Nat} (turns : Nat) (hturns : maxNesting - k < turns) :
    (recordingTurns turns : Rules (Recorded σ)).Tracks k := by
  induction turns generalizing k with
  | zero => cases hturns
  | succ turns ih => exact .turn fun hfree => ih (by omega)

theorem tracks_recordingRules : (recordingRules : Rules (Recorded σ)).Tracks 0 :=
  tracks_recordingTurns _ (Nat.lt_succ_self _)

end Grammar

/-! ## Workflows -/

namespace Grammar

open Surroundings

variable {k : Nat} {s : Surroundings}

theorem tracks_announced {read? : TokenKind → Option α} {expected : List TokenKind}
    {Q : Surroundings → Prop}
    (h : ∀ κ a, read? κ = some a → κ ≠ .endOfInput ∧ s.count κ = k ∧ Q (s.step κ)) :
    Tracks k s anywhere (announced read? expected : Parser (Recorded σ) (Lead α)) Q := by
  refine .peek fun κ _ => ?_
  cases hκ : read? κ with
  | none => exact .unexpected nofun
  | some a =>
      obtain ⟨hne, hcount, hQ⟩ := h κ a hκ
      exact (Tracks.advance hne hcount rfl).seq fun _ => .pure _ hQ

namespace Rules.Tracks

variable {r : Rules (Recorded σ)} (h : r.Tracks 0)

include h

theorem action (hs : s.Outside) : Parser.Tracks 0 s anywhere r.action Outside :=
  (tracks_announced (Q := fun s => s.Outside ∧ s.guarding = false) fun _ _ hκ =>
    have hphase := enter_or_leave hκ
    ⟨by rcases hphase with rfl | rfl <;> decide, hs.enter hphase⟩).bind
    fun _ _ hs' => (Tracks.blockOf h.statement (hs'.1.between hs'.2)).seq fun _ =>
    .pure _ hs'.1.step_kwEnd

theorem transition (hs : s.Outside) : Parser.Tracks 0 s anywhere r.transition Outside := by
  have hannounced := hs.step_kwTransition
  have htotal := hannounced.inside.total_eq
  refine (Tracks.expect (by decide) hs.count_kwTransition rfl).seq fun _ =>
    (Tracks.expect_inert rfl htotal).seq fun _ => (Tracks.expect_inert rfl htotal).seq fun _ =>
    .acceptThen (by decide) hs.count_guard ?_ ?_
  · exact ((h.condition hs.step_guard.inside).map some).seq fun _ => .pure _ hs.step_guard
  · exact .bind (.pure none hannounced) fun _ _ hs' => .pure _ hs'

/-- The members of a node leave everything closed, so there may be any number
of them. -/
theorem member (hs : s.Outside) :
    Parser.Tracks 0 s anywhere (memberWith r.action r.transition) Outside := by
  refine .peek fun κ _ => ?_
  split
  · exact ((h.action hs).narrow fun _ => trivial).map _
  · exact ((h.action hs).narrow fun _ => trivial).map _
  · exact ((h.transition hs).narrow fun _ => trivial).map _
  · exact .unexpected nofun

theorem node (hs : s.Outside) : Parser.Tracks 0 s anywhere r.node Outside := by
  refine (tracks_announced (k := 0) (Q := (· = s)) fun κ kind hκ => ?_).seq fun _ =>
    (Tracks.expect_inert rfl hs.inside.total_eq).seq fun _ =>
    (Tracks.repeatUntil (fun _ => h.member) hs).bind fun _ _ hs' =>
    (Tracks.expect (by decide) hs'.count_kwEnd rfl).seq fun _ =>
    (Tracks.notify _).seq fun _ => .pure _ hs'.step_kwEnd
  have hinert := inert_nodeKind hκ
  exact ⟨kind_ne_of_inert hinert, (count_of_inert hinert s).trans hs.inside.total_eq,
    step_of_inert hinert s⟩

theorem workflow (hs : s.Outside) : Parser.Tracks 0 s anywhere r.workflow Outside := by
  have hnode (s' : Surroundings) (hs' : s'.Outside) :
      Parser.Tracks 0 s' anywhere (nodeOrEndWith r.node) Outside := by
    refine .peek fun κ _ => ?_
    cases NodeKind.ofKeyword? κ with
    | none => exact .unexpected nofun
    | some _ => exact (h.node hs').narrow fun _ => trivial
  exact (Tracks.expect_inert rfl hs.inside.total_eq).seq fun _ =>
    (Tracks.expect_inert rfl hs.inside.total_eq).seq fun _ =>
    (Tracks.repeatUntil hnode hs).bind fun _ _ hs' =>
    (Tracks.expect (by decide) hs'.count_kwEnd rfl).seq fun _ =>
    (Tracks.notify _).seq fun _ => .pure _ hs'.step_kwEnd

end Rules.Tracks

end Grammar

end WorkflowScript
