import WorkflowScript.Proofs.Workflow.Acceptance

/-!
# The grammar is unambiguous

A sequence of tokens has one tree at most, whichever nonterminal it is
derived from. For every nonterminal that can end in front of the end of the
input its parser shows it (`Unambiguous.of_runs`), and all of them can.
-/

namespace WorkflowScript

open WorkflowScript.Parser

namespace Grammar

variable {σ : Type} [TokenSource σ]

/-! ## Expressions -/

/-- Nothing goes on at the end of the input. -/
theorem ExpressionSymbol.endOfInput_not_mem (s : ExpressionSymbol) :
    TokenKind.endOfInput ∉ s.continuers := by
  cases s <;> decide

theorem ExpressionSymbol.unambiguous (s : ExpressionSymbol) : Unambiguous s.Derives :=
  .of_runs s.parser Derives.proper fun h hn hc hend =>
    h.runs hn hc (hend ▸ s.endOfInput_not_mem)

/-! ## Statements -/

theorem endOfInput_not_goesOn : TokenKind.endOfInput ∉ goesOn :=
  ExpressionSymbol.endOfInput_not_mem .expression

theorem unambiguous_assignment : Unambiguous DerivesAssignment :=
  .of_runs assignment DerivesAssignment.proper fun h hn hc hend =>
    h.runs hn hc (hend ▸ endOfInput_not_goesOn)

theorem unambiguous_declaration : Unambiguous DerivesDeclaration :=
  .of_runs declaration DerivesDeclaration.proper fun h hn hc hend =>
    h.runs hn hc (hend ▸ endOfInput_not_goesOn)

theorem unambiguous_bareDeclaration : Unambiguous DerivesBareDeclaration :=
  .of_runs bareDeclaration DerivesBareDeclaration.proper fun h hn hc hend =>
    h.runs hn hc (hend ▸ endOfInput_not_goesOn)

namespace StatementSymbol

/-- The parser of the nonterminal. Statements go on to the end of the input. -/
def parser (n : Nat) : (s : StatementSymbol) → Parser σ s.Tree
  | statement => Grammar.statement n
  | statements => script n
  | definition => Grammar.definition n
  | conditional => Grammar.conditional n
  | loop => Grammar.loop n

theorem Accepts.runs {n : Nat} {c c' : Cursor σ} {s : StatementSymbol} {t : s.Tree}
    (h : s.Accepts n c c' t) (hend : c'.current.kind = .endOfInput) :
    (s.parser n).Runs c t c' :=
  match s, t, h with
  | statement, _, h => h
  | statements, _, h => h _ (by decide) (by simp [hend])
  | definition, _, h => h
  | conditional, _, h => h
  | loop, _, h => h

theorem unambiguous (s : StatementSymbol) : Unambiguous s.Derives :=
  .of_runs (fun n => s.parser n) Derives.proper fun h hn hc hend =>
    (h.accepts hn hc (hend ▸ endOfInput_not_goesOn)).runs hend

end StatementSymbol

/-! ## Workflows -/

theorem unambiguous_action : Unambiguous DerivesAction :=
  .of_runs action DerivesAction.proper fun h hn hc _ => h.runs hn hc

theorem unambiguous_transition : Unambiguous DerivesTransition :=
  .of_runs transition DerivesTransition.proper fun h hn hc hend =>
    h.runs hn hc (by rw [hend]; decide) (hend ▸ ExpressionSymbol.endOfInput_not_mem _)

theorem unambiguous_node : Unambiguous DerivesNode :=
  .of_runs node DerivesNode.proper fun h hn hc _ => h.runs hn hc

theorem unambiguous_workflow : Unambiguous DerivesWorkflow :=
  .of_runs workflow DerivesWorkflow.proper fun h hn hc _ => h.runs hn hc

end Grammar

end WorkflowScript
