import Mathlib.Logic.Function.Basic
import WorkflowScript.Proofs.Workflow.Labels
import WorkflowScript.Proofs.Workflow.Lookahead
import WorkflowScript.Proofs.Workflow.Relabelling
import WorkflowScript.Proofs.Workflow.Unambiguity

/-!
# The sentences of a production

Every production has its nonterminal. What has been shown of the nonterminals
one by one is put together here for all productions: what the parser of a
production recognises, that it goes alike on any two sources, and that a
sentence has one tree, which takes its labels from the sentence.
-/

namespace WorkflowScript

open WorkflowScript.Grammar WorkflowScript.Language WorkflowScript.Parser

variable {σ τ α : Type} [TokenSource σ] [TokenSource τ]

namespace Grammar

/-- The nonterminals for what may be missing. -/
def ExpressionSymbol.IsOptional : ExpressionSymbol → Prop
  | alternatives | conjuncts | addends | multipliers | moreArguments => True
  | _ => False

theorem ExpressionSymbol.Derives.ne_nil {s : ExpressionSymbol} {ts : List Token} {t : s.Tree}
    (h : s.Derives ts t) (hs : ¬s.IsOptional) : ts ≠ [] := by
  induction h with
  | _ => simp_all [IsOptional]

/-- The arguments of a call take a level. That level is opened around the
whole call, for arguments on their own cannot be promised without one. -/
theorem recognises_call (n : Nat) :
    Recognises anywhere (call (n + 1) : Parser σ Call) (ExpressionSymbol.within .call) (n + 1) := by
  refine .mono (.nested (.bind (.expect (by decide)) fun name =>
    .bind (.bracketed (recognises_expression n)) fun args => .pure _)) ?_
  rintro _ _ _ ⟨n, rfl, _, name, _, rfl, ⟨rfl, hname⟩, us, args, _, rfl, hargs, rfl, rfl⟩
  rw [List.append_nil]
  have hargs := within_arguments hargs
  exact ⟨.call hname hargs.1, hargs.2⟩

end Grammar

/-- `p.Derives ts t`: the tokens `ts` are a sentence of the nonterminal of
`p`, and `t` is the tree they stand for. -/
inductive Production.Derives : Production → List Token → Fragment → Prop
  | workflow {ts w} : DerivesWorkflow ts w → Derives .workflow ts (.workflow w)
  | node {ts n} : DerivesNode ts n → Derives .node ts (.node n)
  | action {ts a} : DerivesAction ts a → Derives .action ts (.action a)
  | transition {ts t} : DerivesTransition ts t → Derives .transition ts (.transition t)
  | script {ts ss} : StatementSymbol.statements.Derives ts ss → Derives .script ts (.script ss)
  | statement {ts s} :
      StatementSymbol.statement.Derives ts s → Derives .statement ts (.statement s)
  | definition {ts d} :
      StatementSymbol.definition.Derives ts d → Derives .definition ts (.definition d)
  | call {ts c} : ExpressionSymbol.call.Derives ts c → Derives .call ts (.call c)
  | declaration {ts d} : DerivesDeclaration ts d → Derives .declaration ts (.declaration d)
  | bareDeclaration {ts d} :
      DerivesBareDeclaration ts d → Derives .bareDeclaration ts (.declaration d)
  | assignment {ts a} : DerivesAssignment ts a → Derives .assignment ts (.assignment a)
  | conditional {ts c} :
      StatementSymbol.conditional.Derives ts c → Derives .conditional ts (.conditional c)
  | loop {ts l} : StatementSymbol.loop.Derives ts l → Derives .loop ts (.loop l)
  | condition {ts c} :
      ExpressionSymbol.condition.Derives ts c → Derives .condition ts (.condition c)
  | conjunction {ts c} :
      ExpressionSymbol.conjunction.Derives ts c → Derives .conjunction ts (.conjunction c)
  | clause {ts c} : ExpressionSymbol.clause.Derives ts c → Derives .clause ts (.clause c)
  | relation {ts r} : ExpressionSymbol.relation.Derives ts r → Derives .relation ts (.relation r)
  | expression {ts e} :
      ExpressionSymbol.expression.Derives ts e → Derives .expression ts (.expression e)
  | term {ts t} : ExpressionSymbol.term.Derives ts t → Derives .term ts (.term t)
  | factor {ts x} : ExpressionSymbol.factor.Derives ts x → Derives .factor ts (.factor x)

/-! ## What is recognised -/

/-- Under a constructor of `Fragment`. -/
theorem Parser.Recognises.under {p : Parser σ α} {derives : List Token → α → Prop}
    {nesting : α → Nat} {n : Nat} {f : α → Fragment} {derives' : List Token → Fragment → Prop}
    (h : Recognises anywhere p (bounded derives nesting) n)
    (hf : ∀ {ts a}, derives ts a → derives' ts (f a)) :
    Recognises anywhere (f <$> p) (fun _ => derives') n := by
  refine h.map.mono ?_
  rintro _ _ _ ⟨ts, a, _, rfl, hsentence, rfl, rfl⟩
  rw [List.append_nil]
  exact hf hsentence.1

namespace Production

theorem recognises (p : Production) :
    Recognises anywhere (p.parser : Parser σ Fragment) (fun _ => p.Derives) maxNesting :=
  match p with
  | workflow => (recognises_workflow _).under .workflow
  | node => (recognises_node _).under .node
  | action => (recognises_action _).under .action
  | transition => (recognises_transition _).under .transition
  | script => (recognises_script _).under .script
  | statement => (recognises_statement _).under .statement
  | definition => (recognises_definitionOf (recognises_statement _)).under .definition
  | call => (recognises_call _).under .call
  | declaration => (recognises_declaration _).under .declaration
  | bareDeclaration => (recognises_bareDeclaration _).under .bareDeclaration
  | assignment => (recognises_assignment _).under .assignment
  | conditional => (recognises_conditionalOf (recognises_statement _)).under .conditional
  | loop => (recognises_loopOf (recognises_statement _)).under .loop
  | condition => (recognises_condition _).under .condition
  | conjunction => (recognises_conjunction _).under .conjunction
  | clause => (recognises_clause _).under .clause
  | relation => (recognises_relation _).under .relation
  | expression => (recognises_expression _).under .expression
  | term => (recognises_term _).under .term
  | factor => (recognises_factor _).under .factor

theorem alike (p : Production) :
    Alike (p.parser : Parser σ Fragment) (p.parser : Parser τ Fragment) :=
  match p with
  | workflow => .map (alike_workflow _)
  | node => .map (alike_node _)
  | action => .map (alike_action _)
  | transition => .map (alike_transition _)
  | script => .map (alike_script _)
  | statement => .map (alike_statement _)
  | definition => .map (alike_definition (alike_statement _))
  | call => .map (alike_call _)
  | declaration => .map (alike_declaration _)
  | bareDeclaration => .map (alike_bareDeclaration _)
  | assignment => .map (alike_assignment _)
  | conditional => .map (alike_conditional (alike_statement _))
  | loop => .map (alike_loop (alike_statement _))
  | condition => .map (alike_condition (alike_factor _))
  | conjunction => .map (alike_conjunction (alike_factor _))
  | clause => .map (alike_clause (alike_factor _))
  | relation => .map (alike_relation (alike_factor _))
  | expression => .map (alike_expression (alike_factor _))
  | term => .map (alike_term (alike_factor _))
  | factor => .map (alike_factor _)

/-! ## Trees -/

variable {p : Production} {ts : List Token} {t u : Fragment}

namespace Derives

/-- A sentence has one tree. -/
theorem unique : p.Derives ts t → p.Derives ts u → t = u
  | workflow h, workflow h' => congrArg Fragment.workflow (unambiguous_workflow _ _ _ h h')
  | node h, node h' => congrArg Fragment.node (unambiguous_node _ _ _ h h')
  | action h, action h' => congrArg Fragment.action (unambiguous_action _ _ _ h h')
  | transition h, transition h' =>
      congrArg Fragment.transition (unambiguous_transition _ _ _ h h')
  | script h, script h' => congrArg Fragment.script (StatementSymbol.unambiguous _ _ _ _ h h')
  | statement h, statement h' =>
      congrArg Fragment.statement (StatementSymbol.unambiguous _ _ _ _ h h')
  | definition h, definition h' =>
      congrArg Fragment.definition (StatementSymbol.unambiguous _ _ _ _ h h')
  | call h, call h' => congrArg Fragment.call (ExpressionSymbol.unambiguous _ _ _ _ h h')
  | declaration h, declaration h' =>
      congrArg Fragment.declaration (unambiguous_declaration _ _ _ h h')
  | bareDeclaration h, bareDeclaration h' =>
      congrArg Fragment.declaration (unambiguous_bareDeclaration _ _ _ h h')
  | assignment h, assignment h' =>
      congrArg Fragment.assignment (unambiguous_assignment _ _ _ h h')
  | conditional h, conditional h' =>
      congrArg Fragment.conditional (StatementSymbol.unambiguous _ _ _ _ h h')
  | loop h, loop h' => congrArg Fragment.loop (StatementSymbol.unambiguous _ _ _ _ h h')
  | condition h, condition h' =>
      congrArg Fragment.condition (ExpressionSymbol.unambiguous _ _ _ _ h h')
  | conjunction h, conjunction h' =>
      congrArg Fragment.conjunction (ExpressionSymbol.unambiguous _ _ _ _ h h')
  | clause h, clause h' => congrArg Fragment.clause (ExpressionSymbol.unambiguous _ _ _ _ h h')
  | relation h, relation h' =>
      congrArg Fragment.relation (ExpressionSymbol.unambiguous _ _ _ _ h h')
  | expression h, expression h' =>
      congrArg Fragment.expression (ExpressionSymbol.unambiguous _ _ _ _ h h')
  | term h, term h' => congrArg Fragment.term (ExpressionSymbol.unambiguous _ _ _ _ h h')
  | factor h, factor h' => congrArg Fragment.factor (ExpressionSymbol.unambiguous _ _ _ _ h h')

theorem proper (h : p.Derives ts t) : ∀ x ∈ ts, x.Proper := by
  cases h with
  | workflow h | node h | action h | transition h => exact h.proper
  | script h | statement h | definition h | conditional h | loop h => exact h.proper
  | declaration h | bareDeclaration h | assignment h => exact h.proper
  | call h | condition h | conjunction h | clause h | relation h | expression h | term h
  | factor h => exact h.proper

/-- Only an empty script is made of nothing. -/
theorem ne_nil (h : p.Derives ts t) (hp : p ≠ .script) : ts ≠ [] := by
  cases h with
  | script => exact absurd rfl hp
  | workflow h | node h | action h | transition h | declaration h | assignment h =>
      cases h
      simp
  | bareDeclaration h => rcases h with ⟨⟨⟩⟩ | _ <;> simp
  | statement h | definition h | conditional h | loop h => exact h.ne_nil (by decide)
  | call h | condition h | conjunction h | clause h | relation h | expression h | term h
  | factor h => exact h.ne_nil id

/-- Other labels in a sentence are other labels in its tree. -/
theorem relabel (f : String → String) (g : Position → Position) :
    p.Derives ts t → p.Derives (ts.map (Token.relabel f g)) (t.relabel f g)
  | workflow h => workflow (h.relabel f g)
  | node h => node (h.relabel f g)
  | action h => action (h.relabel f g)
  | transition h => transition (h.relabel f g)
  | script h => script (h.relabel f g)
  | statement h => statement (h.relabel f g)
  | definition h => definition (h.relabel f g)
  | call h => call (h.relabel f g)
  | declaration h => declaration (h.relabel f g)
  | bareDeclaration h => bareDeclaration (h.relabel f g)
  | assignment h => assignment (h.relabel f g)
  | conditional h => conditional (h.relabel f g)
  | loop h => loop (h.relabel f g)
  | condition h => condition (h.relabel f g)
  | conjunction h => conjunction (h.relabel f g)
  | clause h => clause (h.relabel f g)
  | relation h => relation (h.relabel f g)
  | expression h => expression (h.relabel f g)
  | term h => term (h.relabel f g)
  | factor h => factor (h.relabel f g)

/-! Labels that are not in a sentence can be changed without the sentence being
changed, and so without its tree being changed: they are not in the tree. -/

/-- What leaves a sentence as it is leaves the labels of its tree. -/
theorem map_labels (h : p.Derives ts t) {f : String → String} {g : Position → Position}
    (hts : ∀ x ∈ ts, x.relabel f g = x) {l : Label} (hl : l ∈ t.labels) : l.map f g = l := by
  have hsame : ts.map (Token.relabel f g) = ts := (List.map_congr_left hts).trans (List.map_id ts)
  have htree := h.relabel f g
  rw [hsame] at htree
  have hlabels := t.labels_relabel f g
  rw [htree.unique h] at hlabels
  exact List.map_inj_left.mp (hlabels.symm.trans (List.map_id _).symm) l hl

theorem word_mem (h : p.Derives ts t) {text : String} (hl : .word text ∈ t.labels) :
    text ∈ ts.map Token.text := by
  by_contra hnot
  have hts : ∀ x ∈ ts, x.relabel (Function.update id text (text ++ ".")) id = x := by
    intro x hx
    have hne : x.text ≠ text := fun he => hnot (he ▸ List.mem_map_of_mem hx)
    rw [Token.relabel, Function.update_of_ne hne]
    rfl
  have hword := Label.word.inj (h.map_labels hts hl)
  rw [Function.update_self] at hword
  simpa using congrArg String.length hword

theorem place_mem (h : p.Derives ts t) {position : Position}
    (hl : .place position ∈ t.labels) : position ∈ ts.map Token.position := by
  by_contra hnot
  have hts : ∀ x ∈ ts, x.relabel id
      (Function.update id position { position with offset := position.offset + 1 }) = x := by
    intro x hx
    have hne : x.position ≠ position := fun he => hnot (he ▸ List.mem_map_of_mem hx)
    rw [Token.relabel, Function.update_of_ne hne]
    rfl
  have hplace := Label.place.inj (h.map_labels hts hl)
  rw [Function.update_self] at hplace
  simpa using congrArg Position.offset hplace

end Derives

end Production

end WorkflowScript
