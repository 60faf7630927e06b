import WorkflowScript.Proofs.Parser.Lookahead
import WorkflowScript.Proofs.Workflow.Completeness

/-!
# Productions decide by one token of lookahead

Every production goes alike on any two sources. The proofs follow the
definitions; the recursion on levels is in `alike_factor` and
`alike_statement`, and loops need to know that what they repeat makes the
cursor smaller.
-/

namespace WorkflowScript.Grammar

open WorkflowScript.Parser

variable {σ τ : Type} [TokenSource σ] [TokenSource τ]

/-! ## Expressions -/

theorem alike_tooDeep {α : Type} : Alike (tooDeep : Parser σ α) (tooDeep : Parser τ α) :=
  fun _ => .unexpected

section Layers

variable {n : Nat} (h : Alike (factor n : Parser σ Factor) (factor n : Parser τ Factor))

include h

theorem alike_term : Alike (term n : Parser σ Term) (term n : Parser τ Term) :=
  .bind h fun _ _ => .bind
    (.chain rfl (recognises_factor n).steady (recognises_factor n).steady h) fun _ _ => .pure _ _

theorem alike_expression :
    Alike (expression n : Parser σ Expression) (expression n : Parser τ Expression) :=
  .bind (alike_term h) fun _ _ => .bind
    (.chain rfl (recognises_term n).steady (recognises_term n).steady (alike_term h))
    fun _ _ => .pure _ _

theorem alike_relation :
    Alike (relation n : Parser σ Relation) (relation n : Parser τ Relation) := by
  refine .bind (alike_expression h) fun _ _ c => .peek ?_
  cases hop : relOp? c.current.kind with
  | none => exact .pure trivial
  | some op =>
      have hne : c.current.kind ≠ .endOfInput := fun he => by rw [he] at hop; cases hop
      exact .bind (.advance hne) (fun _ => trivial) fun _ _ _ _ _ =>
        .bind (alike_expression h _) (fun _ => trivial) fun _ _ _ _ _ => .pure trivial

theorem alike_clause : Alike (clause n : Parser σ Clause) (clause n : Parser τ Clause) :=
  .acceptThen (by decide) fun _ => .bind (alike_relation h) fun _ _ => .pure _ _

theorem alike_conjunction :
    Alike (conjunction n : Parser σ Conjunction) (conjunction n : Parser τ Conjunction) :=
  .bind (alike_clause h) fun _ _ => .bind
    (.chainOn (by decide) (recognises_clause n).steady (recognises_clause n).steady
      (alike_clause h)) fun _ _ => .pure _ _

theorem alike_condition :
    Alike (condition n : Parser σ Condition) (condition n : Parser τ Condition) :=
  .bind (alike_conjunction h) fun _ _ => .bind
    (.chainOn (by decide) (recognises_conjunction n).steady (recognises_conjunction n).steady
      (alike_conjunction h)) fun _ _ => .pure _ _

theorem alike_argumentsOf :
    Alike (argumentsOf (factor n : Parser σ Factor)) (argumentsOf (factor n : Parser τ Factor)) :=
  .bracketed (recognises_expression n).steady (recognises_expression n).steady
    (alike_expression h)

theorem alike_groupOf :
    Alike (groupOf (factor n : Parser σ Factor)) (groupOf (factor n : Parser τ Factor)) :=
  .bind (.expect (by decide)) fun _ _ => .bind (alike_condition h) fun _ _ =>
    .bind (.expect (by decide)) fun _ _ => .pure _ _

end Layers

theorem alike_callTail {p : Parser σ (List Expression)} {q : Parser τ (List Expression)}
    (h : Alike p q) (name name' : Token) : Alike (callTail p name) (callTail q name') :=
  .bind h fun _ _ => .pure _ _

/-- A single token that is a factor. -/
theorem alike_literal {c : Cursor σ} {f g : Token → Factor} (h : c.current.kind ≠ .endOfInput) :
    AlikeAt anyValues (Parser.advance >>= fun t => pure (f t) : Parser σ Factor)
      (Parser.advance >>= fun t => pure (g t) : Parser τ Factor) c :=
  .bind (.advance h) (fun _ => trivial) fun _ _ _ _ _ => .pure trivial

theorem alike_factorOf {p : Parser σ (List Expression)} {q : Parser τ (List Expression)}
    {p' : Parser σ Condition} {q' : Parser τ Condition} (h : Alike p q) (h' : Alike p' q') :
    Alike (factorOf p p') (factorOf q q') := by
  refine fun c => .peek ?_
  split
  · rename_i hk
    refine .bind (.advance (by rw [hk]; decide)) (fun _ => trivial) fun _ _ d _ _ => .peek ?_
    split
    · exact .bind (alike_callTail h _ _ d) (fun _ => trivial) fun _ _ _ _ _ => .pure trivial
    · exact .pure trivial
  · rename_i hk
    exact alike_literal (by rw [hk]; decide)
  · rename_i hk
    exact alike_literal (by rw [hk]; decide)
  · rename_i hk
    exact alike_literal (by rw [hk]; decide)
  · rename_i hk
    exact alike_literal (by rw [hk]; decide)
  · exact .bind (h' c) (fun _ => trivial) fun _ _ _ _ _ => .pure trivial
  · exact .unexpected

theorem alike_factor :
    ∀ n, Alike (factor n : Parser σ Factor) (factor n : Parser τ Factor)
  | 0 => alike_factorOf alike_tooDeep alike_tooDeep
  | n + 1 => alike_factorOf (alike_argumentsOf (alike_factor n)) (alike_groupOf (alike_factor n))

theorem alike_arguments : ∀ n,
    Alike (arguments n : Parser σ (List Expression)) (arguments n : Parser τ (List Expression))
  | 0 => alike_tooDeep
  | n + 1 => alike_argumentsOf (alike_factor n)

theorem alike_call (n : Nat) : Alike (call n : Parser σ Call) (call n : Parser τ Call) :=
  .bind (.expect (by decide)) fun name name' => alike_callTail (alike_arguments n) name name'

/-! ## Statements -/

theorem alike_assignedValue (n : Nat) :
    Alike (assignedValue n : Parser σ Expression) (assignedValue n : Parser τ Expression) :=
  .bind (.expect (by decide)) fun _ _ => alike_expression (alike_factor n)

theorem alike_assignment (n : Nat) :
    Alike (assignment n : Parser σ Assignment) (assignment n : Parser τ Assignment) :=
  .bind (.expect (by decide)) fun _ _ => .bind (alike_assignedValue n) fun _ _ => .pure _ _

theorem alike_declaration (n : Nat) :
    Alike (declaration n : Parser σ Declaration) (declaration n : Parser τ Declaration) := by
  rw [declaration_eq, declaration_eq]
  exact .bind (.expect (by decide)) fun _ _ => .bind (.expect (by decide)) fun _ _ =>
    .bind (alike_assignedValue n) fun _ _ => .pure _ _

theorem alike_bareDeclaration (n : Nat) :
    Alike (bareDeclaration n : Parser σ Declaration) (bareDeclaration n : Parser τ Declaration) := by
  rw [bareDeclaration_eq, bareDeclaration_eq]
  refine fun c => .peek ?_
  split
  · exact alike_declaration n c
  · exact Alike.bind (.expect (by decide)) (fun _ _ => .bind (alike_assignedValue n)
      fun _ _ => .pure _ _) c

theorem alike_parameters :
    Alike (bracketed parameter : Parser σ (List String))
      (bracketed parameter : Parser τ (List String)) :=
  .bracketed steady_parameter steady_parameter
    (.bind (.expect (by decide)) fun _ _ => .pure _ _)

section Bodies

variable {n : Nat} (h : Alike (statement n : Parser σ Statement) (statement n : Parser τ Statement))

include h

theorem alike_statementsBefore (closers : List TokenKind) :
    Alike (statementsBefore (statement n : Parser σ Statement) closers)
      (statementsBefore (statement n : Parser τ Statement) closers) :=
  .repeatUntil (advancing_statement n) (advancing_statement n) h

theorem alike_block :
    Alike (block n : Parser σ (List Statement)) (block n : Parser τ (List Statement)) := by
  rw [block, block, blockOf_eq, blockOf_eq]
  exact .bind (alike_statementsBefore h _) fun _ _ => .bind (.expect (by decide)) fun _ _ =>
    .pure _ _

theorem alike_definition :
    Alike (definition n : Parser σ Definition) (definition n : Parser τ Definition) := by
  rw [definition, definition, definitionOf_eq, definitionOf_eq]
  refine .bind (.expect (by decide)) fun _ _ => .bind (.expect (by decide)) fun _ _ =>
    .bind alike_parameters fun _ _ => .bind (alike_statementsBefore h _) fun _ _ =>
    .acceptThen (by decide) fun b => ?_
  cases b with
  | true =>
      exact .bind (.map (alike_expression (alike_factor n))) fun _ _ =>
        .bind (.expect (by decide)) fun _ _ => .pure _ _
  | false =>
      exact .bind (.pure _ _) fun _ _ => .bind (.expect (by decide)) fun _ _ => .pure _ _

theorem alike_conditional :
    Alike (conditional n : Parser σ Conditional) (conditional n : Parser τ Conditional) :=
  .bind (.expect (by decide)) fun _ _ => .bind (alike_condition (alike_factor n)) fun _ _ =>
    .bind (.expect (by decide)) fun _ _ => .bind (alike_block h) fun _ _ => .pure _ _

theorem alike_loop : Alike (loop n : Parser σ Loop) (loop n : Parser τ Loop) :=
  .bind (.expect (by decide)) fun _ _ => .bind (alike_bareDeclaration n) fun _ _ =>
    .bind (.expect (by decide)) fun _ _ => .bind (alike_relation (alike_factor n)) fun _ _ =>
    .bind (.expect (by decide)) fun _ _ => .bind (alike_assignment n) fun _ _ =>
    .bind (.expect (by decide)) fun _ _ => .bind (alike_block h) fun _ _ => .pure _ _

end Bodies

theorem alike_namedStatement (n : Nat) :
    Alike (namedStatement n : Parser σ Statement) (namedStatement n : Parser τ Statement) := by
  refine .bind (.expect (by decide)) fun _ _ c => .peek ?_
  split
  · exact Alike.bind (alike_callTail (alike_arguments n) _ _) (fun _ _ => .pure _ _) c
  · exact Alike.bind (alike_assignedValue n) (fun _ _ => .pure _ _) c
  · exact .unexpected

theorem alike_statementOf (n : Nat) {p : Parser σ Definition} {p' : Parser τ Definition}
    {q : Parser σ Conditional} {q' : Parser τ Conditional} {r : Parser σ Loop}
    {r' : Parser τ Loop} (hp : Alike p p') (hq : Alike q q') (hr : Alike r r') :
    Alike (statementOf n p q r) (statementOf n p' q' r') := by
  refine fun c => .peek ?_
  split
  · exact Alike.map hp c
  · exact Alike.map (alike_declaration n) c
  · exact Alike.map hq c
  · exact Alike.map hr c
  · exact alike_namedStatement n c
  · exact .unexpected

theorem alike_statement :
    ∀ n, Alike (statement n : Parser σ Statement) (statement n : Parser τ Statement)
  | 0 => alike_statementOf 0 alike_tooDeep alike_tooDeep alike_tooDeep
  | n + 1 => alike_statementOf (n + 1) (alike_definition (alike_statement n))
      (alike_conditional (alike_statement n)) (alike_loop (alike_statement n))

theorem alike_script (n : Nat) :
    Alike (script n : Parser σ (List Statement)) (script n : Parser τ (List Statement)) :=
  .repeatUntil (advancing_statement n) (advancing_statement n) (alike_statement n)

/-! ## Workflows -/

theorem alike_announced {κ : Type} {read? : TokenKind → Option κ} {expected : List TokenKind}
    (hend : read? .endOfInput = none) :
    Alike (announced read? expected : Parser σ (Lead κ))
      (announced read? expected : Parser τ (Lead κ)) := by
  refine fun c => .peek ?_
  cases hread : read? c.current.kind with
  | none => exact .unexpected
  | some v =>
      have hne : c.current.kind ≠ .endOfInput := fun he => by rw [he, hend] at hread; cases hread
      exact .bind (.advance hne) (fun _ => trivial) fun _ _ _ _ _ => .pure trivial

theorem alike_action (n : Nat) :
    Alike (action n : Parser σ Action) (action n : Parser τ Action) :=
  .bind (alike_announced rfl) fun _ _ => .bind (alike_block (alike_statement n)) fun _ _ =>
    .pure _ _

theorem alike_transition (n : Nat) :
    Alike (transition n : Parser σ Transition) (transition n : Parser τ Transition) := by
  refine .bind (.expect (by decide)) fun _ _ => .bind (.expect (by decide)) fun _ _ =>
    .bind (.expect (by decide)) fun _ _ => .acceptThen (by decide) fun b => ?_
  cases b with
  | true => exact .bind (.map (alike_condition (alike_factor n))) fun _ _ => .pure _ _
  | false => exact .bind (.pure _ _) fun _ _ => .pure _ _

theorem alike_member (n : Nat) :
    Alike (member n : Parser σ Member) (member n : Parser τ Member) := by
  refine fun c => .peek ?_
  split
  · exact Alike.map (alike_action n) c
  · exact Alike.map (alike_action n) c
  · exact Alike.map (alike_transition n) c
  · exact .unexpected

theorem alike_node (n : Nat) : Alike (node n : Parser σ Node) (node n : Parser τ Node) :=
  .bind (alike_announced rfl) fun _ _ => .bind (.expect (by decide)) fun _ _ =>
    .bind (.repeatUntil (advancing_member n) (advancing_member n) (alike_member n)) fun _ _ =>
    .bind (.expect (by decide)) fun _ _ => .bind (fun _ => .notify) fun _ _ => .pure _ _

theorem alike_nodeOrEnd (n : Nat) :
    Alike (nodeOrEnd n : Parser σ Node) (nodeOrEnd n : Parser τ Node) := by
  refine fun c => .peek ?_
  split
  · exact alike_node n c
  · exact .unexpected

theorem alike_workflow (n : Nat) :
    Alike (workflow n : Parser σ Workflow) (workflow n : Parser τ Workflow) :=
  .bind (.expect (by decide)) fun _ _ => .bind (.expect (by decide)) fun _ _ =>
    .bind (.repeatUntil (advancing_nodeOrEnd n) (advancing_nodeOrEnd n) (alike_nodeOrEnd n))
    fun _ _ => .bind (.expect (by decide)) fun _ _ => .bind (fun _ => .notify) fun _ _ => .pure _ _

end WorkflowScript.Grammar
