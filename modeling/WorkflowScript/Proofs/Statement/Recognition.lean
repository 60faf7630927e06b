import WorkflowScript.Grammar.Statement
import WorkflowScript.Proofs.Expression.Recognition
import WorkflowScript.Proofs.Parser.Loops
import WorkflowScript.Proofs.Statement.Derivation

/-!
# Parsers of statements recognise the grammar

As for expressions: first the productions without statements in them, then
those with a body over any recogniser of statements, and last the recursion
on levels, in `recognises_statement`.

Some parsers are first brought into the form of their production. The
position of a declaration is read off its first token instead of the
lookahead, and a body ends at the end of the input instead of failing
there; the demand for `end` behind the body then fails in the same way.
-/

namespace WorkflowScript.Grammar

open WorkflowScript.Language WorkflowScript.Parser

variable {σ : Type} [TokenSource σ]

/-! ## Parsers in the form of their productions -/

theorem declaration_eq (n : Nat) :
    (declaration n : Parser σ Declaration) = (do
      let var ← expect .kwVar
      let name ← expect .identifier
      let value ← assignedValue n
      pure ⟨name.text, value, var.position⟩) := by
  funext c
  rw [declaration, declarationWith, declarationFrom, place_bind_apply]
  refine bind_congr_at fun t d ht => ?_
  obtain ⟨-, rfl, -⟩ := runs_expect.mp ht
  rfl

/-- Without its keyword a declaration stands where its name does. -/
theorem bareDeclaration_eq (n : Nat) :
    (bareDeclaration n : Parser σ Declaration) = (do
      if (← peek) = .kwVar then declaration n
      else
        let name ← expect .identifier
        let value ← assignedValue n
        pure ⟨name.text, value, name.position⟩) := by
  funext c
  rw [bareDeclaration, declarationWith, declarationFrom, place_bind_apply, peek_bind_apply]
  by_cases h : c.current.kind = .kwVar
  · rw [if_pos h, declaration, declarationWith, declarationFrom, place_bind_apply, accept_bind_apply,
      if_pos h, expect_bind_apply, if_pos h]
  · rw [if_neg h, accept_bind_apply, if_neg h]
    refine bind_congr_at fun t d ht => ?_
    obtain ⟨-, rfl, -⟩ := runs_expect.mp ht
    rfl

/-- A loop over statements that stops at the end of the input, too. -/
def statementsBefore (statement : Parser σ Statement) (closers : List TokenKind) :
    Parser σ (List Statement) :=
  repeatUntil (fun k => closers.contains k || k == .endOfInput) statement

theorem statementsUntil_bind {β : Type} {statement : Parser σ Statement}
    {closers : List TokenKind} {f : List Statement → Parser σ β}
    (hf : ∀ ss d, d.current.kind = .endOfInput → f ss d = unexpected (.kind .kwEnd) d) :
    statementsUntil statement closers >>= f = statementsBefore statement closers >>= f :=
  repeatUntil_guard_bind hf

theorem expect_bind_atEnd {α : Type} {k : TokenKind} {f : Token → Parser σ α} {c : Cursor σ}
    (hk : k ≠ .endOfInput) (h : c.current.kind = .endOfInput) :
    (expect k >>= f) c = unexpected (.kind k) c := by
  rw [expect_bind_apply, if_neg (by rw [h]; exact hk.symm)]

theorem blockOf_eq (statement : Parser σ Statement) :
    blockOf statement = (do
      let statements ← statementsBefore statement [.kwEnd]
      let _ ← expect .kwEnd
      pure statements) :=
  statementsUntil_bind fun _ _ h => expect_bind_atEnd (by decide) h

theorem definitionOf_eq (statement : Parser σ Statement) (n : Nat) :
    definitionOf statement n = (do
      let start ← expect .kwDef
      let name ← expect .identifier
      let params ← bracketed parameter
      let body ← statementsBefore statement [.kwEnd, .kwReturn]
      let returns ← if ← accept .kwReturn then some <$> expression n else pure none
      let _ ← expect .kwEnd
      pure ⟨name.text, params, body, returns, start.position⟩) := by
  refine bind_congr fun start => bind_congr fun name => bind_congr fun params =>
    statementsUntil_bind fun body d h => ?_
  rw [accept_bind_apply, if_neg (by rw [h]; decide)]
  exact expect_bind_atEnd (by decide) h

/-! ## Productions without statements in them -/

/-- The part of an assignment behind its name. -/
abbrev assigned : Language Expression :=
  (token .equals).andThen fun _ => ExpressionSymbol.within .expression

theorem recognises_assignedValue (n : Nat) :
    Recognises anywhere (assignedValue n : Parser σ Expression) assigned n :=
  .bind (.expect (by decide)) fun _ => recognises_expression n

instance : Productive (bounded DerivesAssignment Assignment.nesting) where
  sentence n := by
    obtain ⟨ts, e, he⟩ := Productive.sentence (L := ExpressionSymbol.within .expression) n
    exact ⟨.plain .identifier :: .plain .equals :: ts, _, .assignment rfl rfl he.1,
      he.2⟩

theorem recognises_assignment (n : Nat) :
    Recognises anywhere (assignment n : Parser σ Assignment)
      (bounded DerivesAssignment Assignment.nesting) n := by
  refine .mono (.bind (.expect (by decide)) fun name =>
    .bind (recognises_assignedValue n) fun e => .pure _) ?_
  rintro n _ _ ⟨_, name, _, rfl, ⟨rfl, hname⟩, _, e, _, rfl,
    ⟨_, eq, us, rfl, ⟨rfl, heq⟩, he⟩, rfl, rfl⟩
  exact ⟨by simpa using .assignment hname heq he.1, he.2⟩

instance : Productive (bounded DerivesDeclaration Declaration.nesting) where
  sentence n := by
    obtain ⟨ts, e, he⟩ := Productive.sentence (L := ExpressionSymbol.within .expression) n
    exact ⟨.plain .kwVar :: .plain .identifier :: .plain .equals :: ts, _,
      .declaration rfl rfl rfl he.1, he.2⟩

theorem recognises_declaration {start : TokenKind → Prop} (n : Nat) :
    Recognises start (declaration n : Parser σ Declaration)
      (bounded DerivesDeclaration Declaration.nesting) n := by
  rw [declaration_eq]
  refine .mono (.bind (.expect (by decide)) fun var => .bind (.expect (by decide)) fun name =>
    .bind (recognises_assignedValue n) fun e => .pure _) ?_
  rintro n _ _ ⟨_, var, _, rfl, ⟨rfl, hvar⟩, _, name, _, rfl, ⟨rfl, hname⟩, _, e, _, rfl,
    ⟨_, eq, us, rfl, ⟨rfl, heq⟩, he⟩, rfl, rfl⟩
  exact ⟨by simpa using .declaration hvar hname heq he.1, he.2⟩

instance : Productive (bounded DerivesBareDeclaration Declaration.nesting) where
  sentence n := by
    obtain ⟨ts, d, hd⟩ :=
      Productive.sentence (L := bounded DerivesDeclaration Declaration.nesting) n
    exact ⟨ts, d, .keyword hd.1, hd.2⟩

theorem recognises_bareDeclaration (n : Nat) :
    Recognises anywhere (bareDeclaration n : Parser σ Declaration)
      (bounded DerivesBareDeclaration Declaration.nesting) n := by
  rw [bareDeclaration_eq]
  refine .peek fun k _ => ?_
  split
  · exact .mono (recognises_declaration n) fun h => ⟨.keyword h.1, h.2⟩
  · refine .mono (.bind (.expect (by decide)) fun name =>
      .bind (recognises_assignedValue n) fun e => .pure _) ?_
    rintro n _ _ ⟨_, name, _, rfl, ⟨rfl, hname⟩, _, e, _, rfl,
      ⟨_, eq, us, rfl, ⟨rfl, heq⟩, he⟩, rfl, rfl⟩
    exact ⟨by simpa using .bare hname heq he.1, he.2⟩

/-- Parameters take no level. -/
abbrev parameters : Language (List String) := bounded DerivesParameters fun _ => 0

instance : Productive parameters :=
  ⟨fun n => ⟨[.plain .leftParen, .plain .rightParen], [], .none rfl rfl,
    Nat.zero_le n⟩⟩

theorem derivesMoreParameters_of_listed {n ts names}
    (h : Listed .comma ((token .identifier).andThen fun name => empty name.text) n ts names) :
    DerivesMoreParameters ts names := by
  induction h with
  | nil => exact .nil
  | cons hcomma hname _ ih =>
      obtain ⟨_, name, _, rfl, ⟨rfl, hname⟩, rfl, rfl⟩ := hname
      exact .cons hcomma hname ih

theorem recognises_parameters (n : Nat) :
    Recognises anywhere (bracketed parameter : Parser σ (List String)) parameters n := by
  refine .mono (.bracketed (.bind (.expect (by decide)) fun name => .pure _)) ?_
  intro n ts names h
  refine ⟨?_, Nat.zero_le n⟩
  cases h with
  | none hlp hrp => exact .none hlp hrp
  | some hlp hname hnames hrp =>
      obtain ⟨_, name, _, rfl, ⟨rfl, hname⟩, rfl, rfl⟩ := hname
      exact .some hlp hname (derivesMoreParameters_of_listed hnames) hrp

/-! ## Statements and their bodies -/

namespace StatementSymbol

/-- The sentences of a nonterminal whose trees need at most `n` levels. -/
abbrev within (s : StatementSymbol) : Language s.Tree := bounded s.Derives s.nesting

instance : Productive (within .statement) where
  sentence n := by
    obtain ⟨ts, a, ha⟩ := Productive.sentence (L := bounded DerivesAssignment Assignment.nesting) n
    exact ⟨ts, _, .ofAssignment ha.1, ha.2⟩

instance : Productive (within .statements) := ⟨fun n => ⟨[], [], .nil, Nat.zero_le n⟩⟩

theorem within_statements {n ts ss} (h : Repeated (within .statement) n ts ss) :
    within .statements n ts ss := by
  induction h with
  | nil => exact ⟨.nil, Nat.zero_le n⟩
  | cons hs _ ih => exact ⟨.cons hs.1 ih.1, Nat.max_le.mpr ⟨hs.2, ih.2⟩⟩

/-- A body and the `end` that closes it. -/
def closedBody : Language (List Statement) := fun n ts ss =>
  ∃ us fin, ts = us ++ [fin] ∧ within .statements n us ss ∧ fin.kind = .kwEnd

instance : Growing closedBody where
  grow hle := by
    rintro ⟨us, fin, rfl, hss, hfin⟩
    exact ⟨us, fin, rfl, Growing.grow hle hss, hfin⟩

instance : Productive closedBody where
  sentence n := by
    obtain ⟨us, ss, hss⟩ := Productive.sentence (L := within .statements) n
    exact ⟨us ++ [.plain .kwEnd], ss, us, _, rfl, hss, rfl⟩

end StatementSymbol

open StatementSymbol

section Bodies

variable {statement : Parser σ Statement} {n : Nat}
  (hstatement : Recognises anywhere statement (within .statement) n)

include hstatement

theorem recognises_statementsBefore (closers : List TokenKind) :
    Recognises anywhere (statementsBefore statement closers) (within .statements) n :=
  .mono (.repeatUntil hstatement) within_statements

theorem recognises_blockOf : Recognises anywhere (blockOf statement) closedBody n := by
  rw [blockOf_eq]
  refine .mono (.bind (recognises_statementsBefore hstatement _) fun ss =>
    .bind (.expect (by decide)) fun _ => .pure ss) ?_
  rintro n _ _ ⟨us, ss, _, rfl, hss, _, fin, _, rfl, ⟨rfl, hfin⟩, rfl, rfl⟩
  exact ⟨us, fin, by simp, hss, hfin⟩

theorem recognises_definitionOf :
    Recognises anywhere (definitionOf statement n) (within .definition) n := by
  rw [definitionOf_eq]
  refine .mono (.bind (.expect (by decide)) fun start => .bind (.expect (by decide)) fun name =>
    .bind (recognises_parameters n) fun params =>
    .bind (recognises_statementsBefore hstatement _) fun body =>
    .acceptThen (by decide)
      (.bind (.map (recognises_expression n)) fun returns =>
        .bind (.expect (by decide)) fun _ => .pure _)
      (.bind (.pure none) fun returns => .bind (.expect (by decide)) fun _ => .pure _)) ?_
  rintro n _ _ ⟨_, start, _, rfl, ⟨rfl, hstart⟩, _, name, _, rfl, ⟨rfl, hname⟩, ts, params, _, rfl,
    hparams, us, body, _, rfl, hbody, hrest⟩
  rcases hrest with ⟨ret, _, rfl, hret, _, _, _, rfl, ⟨vs, e, _, rfl, he, rfl, rfl⟩, hend⟩ |
    ⟨_, _, _, rfl, ⟨rfl, rfl⟩, hend⟩
  · obtain ⟨_, fin, _, rfl, ⟨rfl, hfin⟩, rfl, rfl⟩ := hend
    exact ⟨by simpa using
      Derives.definition hstart hname hparams.1 hbody.1 (.some hret he.1) hfin,
      Nat.max_le.mpr ⟨hbody.2, he.2⟩⟩
  · obtain ⟨_, fin, _, rfl, ⟨rfl, hfin⟩, rfl, rfl⟩ := hend
    exact ⟨by simpa using Derives.definition hstart hname hparams.1 hbody.1 .none hfin,
      Nat.max_le.mpr ⟨hbody.2, Nat.zero_le n⟩⟩

theorem recognises_conditionalOf :
    Recognises anywhere (conditionalOf statement n) (within .conditional) n := by
  refine .mono (.bind (.expect (by decide)) fun start => .bind (recognises_condition n) fun test =>
    .bind (.expect (by decide)) fun thenWord => .bind (recognises_blockOf hstatement) fun body =>
    .pure _) ?_
  rintro n _ _ ⟨_, start, _, rfl, ⟨rfl, hstart⟩, ts, test, _, rfl, htest, _, thenWord, _, rfl,
    ⟨rfl, hthen⟩, _, body, _, rfl, ⟨us, fin, rfl, hbody, hfin⟩, rfl, rfl⟩
  exact ⟨by simpa using Derives.conditional hstart htest.1 hthen hbody.1 hfin,
    Nat.max_le.mpr ⟨htest.2, hbody.2⟩⟩

theorem recognises_loopOf : Recognises anywhere (loopOf statement n) (within .loop) n := by
  refine .mono (.bind (.expect (by decide)) fun start =>
    .bind (recognises_bareDeclaration n) fun init => .bind (.expect (by decide)) fun semi =>
    .bind (recognises_relation n) fun test => .bind (.expect (by decide)) fun semi' =>
    .bind (recognises_assignment n) fun step => .bind (.expect (by decide)) fun doWord =>
    .bind (recognises_blockOf hstatement) fun body => .pure _) ?_
  rintro n _ _ ⟨_, start, _, rfl, ⟨rfl, hstart⟩, ts, init, _, rfl, hinit, _, semi, _, rfl,
    ⟨rfl, hsemi⟩, us, test, _, rfl, htest, _, semi', _, rfl, ⟨rfl, hsemi'⟩, vs, step, _, rfl, hstep,
    _, doWord, _, rfl, ⟨rfl, hdo⟩, _, body, _, rfl,
    ⟨ws, fin, rfl, hbody, hfin⟩, rfl, rfl⟩
  exact ⟨by simpa using Derives.loop hstart hinit.1 hsemi htest.1 hsemi' hstep.1 hdo hbody.1 hfin,
    Nat.max_le.mpr ⟨Nat.max_le.mpr ⟨hinit.2, htest.2⟩, Nat.max_le.mpr ⟨hstep.2, hbody.2⟩⟩⟩

end Bodies

/-! ## Statements and the recursion on levels -/

/-- What is left of a statement behind its name. -/
def statementBehind (name : Token) : Language Statement := fun n ts s =>
  (∃ args, ExpressionSymbol.within .arguments n ts args ∧
    s = .call ⟨name.text, args, name.position⟩) ∨
  ∃ e, assigned n ts e ∧ s = .assignment ⟨name.text, e, name.position⟩

instance (name : Token) : Growing (statementBehind name) where
  grow hle := by
    rintro (⟨args, hargs, rfl⟩ | ⟨e, he, rfl⟩)
    · exact .inl ⟨args, Growing.grow hle hargs, rfl⟩
    · exact .inr ⟨e, Growing.grow hle he, rfl⟩

instance (name : Token) : Productive (statementBehind name) where
  sentence n := by
    obtain ⟨ts, e, he⟩ := Productive.sentence (L := assigned) n
    exact ⟨ts, _, .inr ⟨e, he, rfl⟩⟩

theorem promises_statementBehind {name t : Token} (h : t.kind ∈ [.leftParen, .equals]) :
    (statementBehind name).Promises [t] := by
  simp only [List.mem_cons, List.not_mem_nil, or_false] at h
  rcases h with h | h
  · obtain ⟨n, us, args, hargs⟩ := promises_arguments h
    exact ⟨n, us, _, .inl ⟨args, hargs, rfl⟩⟩
  · obtain ⟨us, e, he⟩ := Productive.sentence (L := ExpressionSymbol.within .expression) 0
    exact ⟨0, us, _, .inr ⟨e, ⟨[t], t, us, rfl, ⟨rfl, h⟩, he⟩, rfl⟩⟩

theorem recognises_namedStatement {start : TokenKind → Prop} (n : Nat) :
    Recognises start (namedStatement n : Parser σ Statement) (within .statement) n := by
  refine .mono (L := Language.andThen (token .identifier) statementBehind)
    (.bind (.expect (by decide)) fun name => .peek fun k _ => ?_) ?_
  · split
    · refine .mono (.bind (.bind (recognises_arguments n) fun args => .pure _)
        fun call => .pure _) ?_
      rintro n _ _ ⟨_, call, _, rfl, ⟨us, args, _, rfl, hargs, rfl, rfl⟩, rfl, rfl⟩
      exact .inl ⟨args, by simpa using hargs, rfl⟩
    · refine .mono (.bind (.narrow (recognises_assignedValue n) fun _ => trivial)
        fun e => .pure _) ?_
      rintro n _ _ ⟨us, e, _, rfl, he, rfl, rfl⟩
      exact .inr ⟨e, by rwa [List.append_nil], rfl⟩
    · exact .unexpected fun _ t ht => promises_statementBehind ht
  · rintro n _ _ ⟨_, name, us, rfl, ⟨rfl, hname⟩, ⟨args, hargs, rfl⟩ | ⟨e, he, rfl⟩⟩
    · exact ⟨.ofCall (.call hname hargs.1), hargs.2⟩
    · obtain ⟨_, eq, vs, rfl, ⟨rfl, heq⟩, he⟩ := he
      exact ⟨.ofAssignment (.assignment hname heq he.1), he.2⟩

theorem promises_definition {t : Token} (h : t.kind = .kwDef) :
    (within .definition).nested.Promises [t] := by
  refine ⟨1, [.plain .identifier, .plain .leftParen, .plain .rightParen, .plain .kwEnd],
    ⟨"", [], [], none, t.position⟩, 0, rfl, ?_, Nat.le_refl _⟩
  exact Derives.definition h (Token.plain_kind .identifier)
    (.none (Token.plain_kind .leftParen) (Token.plain_kind .rightParen)) .nil .none
    (Token.plain_kind .kwEnd)

theorem promises_conditional {t : Token} (h : t.kind = .kwIf) :
    (within .conditional).nested.Promises [t] := by
  obtain ⟨ts, c, hc⟩ := Productive.sentence (L := ExpressionSymbol.within .condition) 0
  refine ⟨1, ts ++ [.plain .kwThen, .plain .kwEnd], ⟨c, [], t.position⟩, 0, rfl, ?_,
    Nat.max_le.mpr ⟨hc.2, Nat.le_refl _⟩⟩
  simpa using Derives.conditional h hc.1 (Token.plain_kind .kwThen) .nil (Token.plain_kind .kwEnd)

theorem promises_loop {t : Token} (h : t.kind = .kwFor) :
    (within .loop).nested.Promises [t] := by
  obtain ⟨ts, d, hd⟩ :=
    Productive.sentence (L := bounded DerivesBareDeclaration Declaration.nesting) 0
  obtain ⟨us, r, hr⟩ := Productive.sentence (L := ExpressionSymbol.within .relation) 0
  obtain ⟨vs, a, ha⟩ := Productive.sentence (L := bounded DerivesAssignment Assignment.nesting) 0
  refine ⟨1, ts ++ .plain .semicolon :: us ++ .plain .semicolon :: vs ++
    [.plain .kwDo, .plain .kwEnd], ⟨d, r, a, [], t.position⟩, 0, rfl, ?_,
    Nat.max_le.mpr ⟨Nat.max_le.mpr ⟨hd.2, hr.2⟩, Nat.max_le.mpr ⟨ha.2, Nat.le_refl _⟩⟩⟩
  simpa using Derives.loop h hd.1 (Token.plain_kind .semicolon) hr.1
    (Token.plain_kind .semicolon) ha.1 (Token.plain_kind .kwDo) .nil (Token.plain_kind .kwEnd)

/-- Whatever can start a statement goes on to be one, given a level. -/
theorem promises_statement {t : Token}
    (h : t.kind ∈ [.kwDef, .kwVar, .kwIf, .kwFor, .identifier]) :
    (within .statement).Promises [t] := by
  simp only [List.mem_cons, List.not_mem_nil, or_false] at h
  obtain ⟨ts, e, he⟩ := Productive.sentence (L := ExpressionSymbol.within .expression) 0
  rcases h with h | h | h | h | h
  · obtain ⟨_, us, d, n, rfl, hd⟩ := promises_definition h
    exact ⟨n + 1, us, _, .ofDefinition hd.1, Nat.succ_le_succ hd.2⟩
  · exact ⟨0, .plain .identifier :: .plain .equals :: ts, _,
      .ofDeclaration (.declaration h (Token.plain_kind _) (Token.plain_kind _) he.1), he.2⟩
  · obtain ⟨_, us, c, n, rfl, hc⟩ := promises_conditional h
    exact ⟨n + 1, us, _, .ofConditional hc.1, Nat.succ_le_succ hc.2⟩
  · obtain ⟨_, us, l, n, rfl, hl⟩ := promises_loop h
    exact ⟨n + 1, us, _, .ofLoop hl.1, Nat.succ_le_succ hl.2⟩
  · exact ⟨0, .plain .equals :: ts, _,
      .ofAssignment (.assignment h (Token.plain_kind _) he.1), he.2⟩

theorem recognises_statementOf {definition : Parser σ Definition}
    {conditional : Parser σ Conditional} {loop : Parser σ Loop} {n : Nat}
    (hdefinition : Recognises (· = .kwDef) definition (within .definition).nested n)
    (hconditional : Recognises (· = .kwIf) conditional (within .conditional).nested n)
    (hloop : Recognises (· = .kwFor) loop (within .loop).nested n) :
    Recognises anywhere (statementOf n definition conditional loop) (within .statement) n := by
  refine .peek fun k _ => ?_
  split
  · refine .mono (.map hdefinition) ?_
    rintro _ _ _ ⟨us, d, _, rfl, ⟨n, rfl, hd⟩, rfl, rfl⟩
    exact ⟨.ofDefinition (by simpa using hd.1), Nat.succ_le_succ hd.2⟩
  · refine .mono (.map (recognises_declaration n)) ?_
    rintro n _ _ ⟨us, d, _, rfl, hd, rfl, rfl⟩
    exact ⟨.ofDeclaration (by simpa using hd.1), hd.2⟩
  · refine .mono (.map hconditional) ?_
    rintro _ _ _ ⟨us, c, _, rfl, ⟨n, rfl, hc⟩, rfl, rfl⟩
    exact ⟨.ofConditional (by simpa using hc.1), Nat.succ_le_succ hc.2⟩
  · refine .mono (.map hloop) ?_
    rintro _ _ _ ⟨us, l, _, rfl, ⟨n, rfl, hl⟩, rfl, rfl⟩
    exact ⟨.ofLoop (by simpa using hl.1), Nat.succ_le_succ hl.2⟩
  · exact recognises_namedStatement n
  · exact .unexpected fun _ t ht => promises_statement ht

theorem recognises_statement :
    ∀ n, Recognises anywhere (statement n : Parser σ Statement) (within .statement) n
  | 0 => recognises_statementOf (recognises_tooDeep promises_definition)
      (recognises_tooDeep promises_conditional) (recognises_tooDeep promises_loop)
  | n + 1 =>
      have h := recognises_statement n
      recognises_statementOf (.narrow (.nested (recognises_definitionOf h)) fun _ => trivial)
        (.narrow (.nested (recognises_conditionalOf h)) fun _ => trivial)
        (.narrow (.nested (recognises_loopOf h)) fun _ => trivial)

theorem recognises_block (n : Nat) :
    Recognises anywhere (block n : Parser σ (List Statement)) closedBody n :=
  recognises_blockOf (recognises_statement n)

theorem recognises_script (n : Nat) :
    Recognises anywhere (script n : Parser σ (List Statement)) (within .statements) n :=
  .mono (.repeatUntil (recognises_statement n)) within_statements

end WorkflowScript.Grammar
