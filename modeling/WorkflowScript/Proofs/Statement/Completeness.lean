import WorkflowScript.Proofs.Expression.Completeness
import WorkflowScript.Proofs.Statement.Recognition

/-!
# Every derivation of a statement is parsed

The converse of recognition, as for expressions. A statement may end in an
expression, so the token behind it must not go on with an expression; what
starts a statement never does, and neither do the tokens that close a body.
-/

namespace WorkflowScript.Grammar

open WorkflowScript.Parser

variable {σ : Type} [TokenSource σ]

/-- The kinds of tokens that might go on with an expression. -/
abbrev goesOn : List TokenKind := ExpressionSymbol.continuers .expression

/-! ## Productions without statements in them -/

theorem runs_assignedValue {n : Nat} {c c' : Cursor σ} {eq : Token} {ts : List Token}
    {e : Expression} (heq : eq.kind = .equals) (he : ExpressionSymbol.expression.Derives ts e)
    (hn : e.nesting ≤ n) (hc : c.Consumes (eq :: ts) c') (hfollow : c'.current.kind ∉ goesOn) :
    (assignedValue n).Runs c e c' := by
  obtain ⟨rfl, -, hc⟩ := hc
  exact runs_expect_bind.mpr ⟨heq, he.runs hn hc hfollow⟩

theorem DerivesAssignment.runs {n : Nat} {c c' : Cursor σ} {ts : List Token} {a : Assignment}
    (h : DerivesAssignment ts a) (hn : a.nesting ≤ n) (hc : c.Consumes ts c')
    (hfollow : c'.current.kind ∉ goesOn) : (Grammar.assignment n).Runs c a c' := by
  cases h with
  | assignment hname heq he =>
      obtain ⟨rfl, -, hc⟩ := hc
      exact runs_expect_bind.mpr ⟨hname, runs_bind.mpr
        ⟨_, c', runs_assignedValue heq he hn hc hfollow, runs_pure.mpr ⟨rfl, rfl⟩⟩⟩

theorem DerivesDeclaration.runs {n : Nat} {c c' : Cursor σ} {ts : List Token} {d : Declaration}
    (h : DerivesDeclaration ts d) (hn : d.nesting ≤ n) (hc : c.Consumes ts c')
    (hfollow : c'.current.kind ∉ goesOn) : (Grammar.declaration n).Runs c d c' := by
  cases h with
  | declaration hvar hname heq he =>
      obtain ⟨rfl, -, rfl, -, hc⟩ := hc
      rw [declaration_eq]
      exact runs_expect_bind.mpr ⟨hvar, runs_expect_bind.mpr ⟨hname, runs_bind.mpr
        ⟨_, c', runs_assignedValue heq he hn hc hfollow, runs_pure.mpr ⟨rfl, rfl⟩⟩⟩⟩

theorem DerivesBareDeclaration.runs {n : Nat} {c c' : Cursor σ} {ts : List Token}
    {d : Declaration} (h : DerivesBareDeclaration ts d) (hn : d.nesting ≤ n)
    (hc : c.Consumes ts c') (hfollow : c'.current.kind ∉ goesOn) :
    (bareDeclaration n).Runs c d c' := by
  rw [bareDeclaration_eq, runs_peek_bind]
  cases h with
  | keyword hd =>
      have hvar : c.current.kind = .kwVar := by
        cases hd with
        | declaration hvar _ _ _ => rw [hc.1, hvar]
      rw [if_pos hvar]
      exact hd.runs hn hc hfollow
  | bare hname heq he =>
      obtain ⟨rfl, -, hc⟩ := hc
      rw [if_neg (by rw [hname]; decide)]
      exact runs_expect_bind.mpr ⟨hname, runs_bind.mpr
        ⟨_, c', runs_assignedValue heq he hn hc hfollow, runs_pure.mpr ⟨rfl, rfl⟩⟩⟩

theorem steady_parameter : (parameter : Parser σ String).Steady :=
  (Recognises.bind (n := 0) (.expect (by decide)) fun name => .pure name.text).steady

theorem runs_parameter {c : Cursor σ} (h : c.current.kind = .identifier) :
    (parameter : Parser σ String).Runs c c.current.text c.advance :=
  runs_expect_bind.mpr ⟨h, runs_pure.mpr ⟨rfl, rfl⟩⟩

theorem DerivesMoreParameters.runs {ts : List Token} {names : List String}
    (h : DerivesMoreParameters ts names) : ∀ {c c' : Cursor σ}, c.Consumes ts c' →
      c'.current.kind ≠ .comma → (chainOn .comma parameter).Runs c names c' := by
  induction h with
  | nil =>
      intro c c' hc hfollow
      obtain rfl := hc
      exact runs_chainOn_nil (by decide) steady_parameter hfollow
  | cons hcomma hname _ ih =>
      intro c c' hc hfollow
      obtain ⟨hcur, -, hcur', -, hc⟩ := hc
      subst hcur hcur'
      exact runs_chainOn_cons (by decide) steady_parameter hcomma (runs_parameter hname)
        (ih hc hfollow)

theorem DerivesParameters.runs {c c' : Cursor σ} {ts : List Token} {names : List String}
    (h : DerivesParameters ts names) (hc : c.Consumes ts c') :
    (bracketed parameter).Runs c names c' := by
  cases h with
  | none hlp hrp =>
      obtain ⟨rfl, -, rfl, -, rfl⟩ := hc
      exact runs_bracketed_nil hlp hrp
  | some hlp hname hnames hrp =>
      rw [List.cons_append, List.cons_append] at hc
      obtain ⟨rfl, -, rfl, -, hc⟩ := hc
      obtain ⟨d, hcd, rfl, -, rfl⟩ := Cursor.consumes_append.mp hc
      refine runs_bracketed_cons hlp (by rw [hname]; decide) (runs_parameter hname)
        (hnames.runs hcd ?_) hrp
      rw [hrp]
      decide

/-- What may close the body of a definition. -/
theorem DerivesReturns.current_mem {c d : Cursor σ} {ts : List Token}
    {returns : Option Expression} (h : DerivesReturns ts returns) (hc : c.Consumes ts d)
    (hfin : d.current.kind = .kwEnd) : c.current.kind ∈ [TokenKind.kwEnd, .kwReturn] := by
  cases h with
  | none =>
      obtain rfl := hc
      simp [hfin]
  | some hret _ => simp [hc.1, hret]

theorem goesOn_of_closers : ∀ k ∈ [TokenKind.kwEnd, .kwReturn], k ∉ goesOn := by decide

/-! ## Statements and their bodies -/

namespace StatementSymbol

/-- The kinds of tokens that a statement may start with. -/
def starters : List TokenKind := [.kwDef, .kwVar, .kwIf, .kwFor, .identifier]

theorem goesOn_of_starters : ∀ k ∈ starters, k ∉ goesOn := by decide

/-- The keyword of the statements that have a body. -/
def keyword? : StatementSymbol → Option TokenKind
  | definition => some .kwDef
  | conditional => some .kwIf
  | loop => some .kwFor
  | statement | statements => none

theorem Derives.current_eq_keyword {s : StatementSymbol} {ts : List Token} {t : s.Tree}
    {k : TokenKind} {c c' : Cursor σ} (h : s.Derives ts t) (hk : s.keyword? = some k)
    (hc : c.Consumes ts c') : c.current.kind = k := by
  cases h with
  | definition hstart | conditional hstart | loop hstart =>
      cases hk
      rw [hc.1, hstart]
  | _ => cases hk

/-- A statement starts with one of the starters. -/
theorem Derives.current_mem_starters {ts : List Token} {s : Statement} {c c' : Cursor σ}
    (h : statement.Derives ts s) (hc : c.Consumes ts c') : c.current.kind ∈ starters := by
  cases h with
  | ofDefinition hd | ofConditional hd | ofLoop hd =>
      rw [hd.current_eq_keyword rfl hc]
      decide
  | ofDeclaration hd =>
      cases hd with
      | declaration hvar =>
          rw [hc.1, hvar]
          decide
  | ofCall hd =>
      cases hd with
      | call hname =>
          rw [hc.1, hname]
          decide
  | ofAssignment hd =>
      cases hd with
      | assignment hname =>
          rw [hc.1, hname]
          decide

/-- Only a list of statements may be empty. -/
theorem Derives.ne_nil {s : StatementSymbol} {ts : List Token} {t : s.Tree} (h : s.Derives ts t)
    (hs : s ≠ statements) : ts ≠ [] := by
  cases h with
  | ofDefinition hd | ofConditional hd | ofLoop hd => cases hd; simp
  | ofDeclaration hd | ofCall hd | ofAssignment hd => cases hd; simp
  | nil | cons => exact absurd rfl hs
  | definition | conditional | loop => simp

/-- Where statements go on or stop, the last of them does not go on. -/
theorem Derives.not_goesOn {ts : List Token} {ss : List Statement} {c c' : Cursor σ}
    (h : statements.Derives ts ss) (hc : c.Consumes ts c') (hfollow : c'.current.kind ∉ goesOn) :
    c.current.kind ∉ goesOn := by
  cases h with
  | nil =>
      obtain rfl := hc
      exact hfollow
  | cons hs _ =>
      obtain ⟨d, hcd, -⟩ := Cursor.consumes_append.mp hc
      exact goesOn_of_starters _ (hs.current_mem_starters hcd)

/-- The parser of the nonterminal runs between the two cursors. For a
sequence of statements that is a loop whose closing token is there. -/
def Accepts (n : Nat) (c c' : Cursor σ) : (s : StatementSymbol) → s.Tree → Prop
  | statement, s => (Grammar.statement n).Runs c s c'
  | statements, ss => ∀ stop : TokenKind → Bool, (∀ k ∈ starters, stop k = false) →
      stop c'.current.kind = true → (repeatUntil stop (Grammar.statement n)).Runs c ss c'
  | definition, d => (Grammar.definition n).Runs c d c'
  | conditional, d => (Grammar.conditional n).Runs c d c'
  | loop, d => (Grammar.loop n).Runs c d c'

end StatementSymbol

open StatementSymbol

/-! ## The recursion on levels in one equation -/

/-- A parser one level further in, if a level is free. -/
def oneLevelIn {α : Type} (p : Nat → Parser σ α) : (levels : Nat) → Parser σ α
  | 0 => tooDeep
  | levels + 1 => p levels

theorem statement_eq (n : Nat) :
    (statement n : Parser σ Statement) = statementOf n (oneLevelIn definition n)
      (oneLevelIn conditional n) (oneLevelIn loop n) := by
  cases n <;> rfl

theorem advancing_statement (n : Nat) : (statement n : Parser σ Statement).Advancing := by
  intro c s d hr
  obtain ⟨ts, hts, hs⟩ := (recognises_statement n).runs trivial hr
  have hle := hts.size_le
  have hpos := List.length_pos_iff.mpr (hs.1.ne_nil (by decide))
  omega

theorem runs_statementsBefore {n : Nat} {closers : List TokenKind} {c c' : Cursor σ}
    {ss : List Statement} (h : statements.Accepts n c c' ss)
    (hclosers : ∀ k ∈ StatementSymbol.starters, (closers.contains k || k == .endOfInput) = false)
    (hclosed : c'.current.kind ∈ closers) :
    (statementsBefore (statement n) closers).Runs c ss c' :=
  h _ hclosers (by simp [hclosed])

theorem runs_block {n : Nat} {c d : Cursor σ} {ss : List Statement}
    (h : statements.Accepts n c d ss) (hfin : d.current.kind = .kwEnd) :
    (block n).Runs c ss d.advance := by
  rw [block, blockOf_eq]
  exact runs_bind.mpr ⟨ss, d, runs_statementsBefore h (by decide) (by simp [hfin]),
    runs_expect_bind.mpr ⟨hfin, runs_pure.mpr ⟨rfl, rfl⟩⟩⟩

/-- An expression or nothing behind the body of a definition, and `end`. -/
theorem runs_returns {n : Nat} {c d : Cursor σ} {ts : List Token} {returns : Option Expression}
    {f : Option Expression → Definition} (h : DerivesReturns ts returns)
    (hn : (returns.map Expression.nesting).getD 0 ≤ n) (hc : c.Consumes ts d)
    (hfin : d.current.kind = .kwEnd) :
    (do
      let returns ← if ← accept .kwReturn then some <$> expression n else pure none
      let _ ← expect .kwEnd
      pure (f returns)).Runs c (f returns) d.advance := by
  cases h with
  | none =>
      obtain rfl := hc
      exact (runs_accept_bind_neg (by rw [hfin]; decide)).mpr (runs_bind.mpr
        ⟨none, _, runs_pure.mpr ⟨rfl, rfl⟩,
          runs_expect_bind.mpr ⟨hfin, runs_pure.mpr ⟨rfl, rfl⟩⟩⟩)
  | some hret he =>
      obtain ⟨rfl, -, hc⟩ := hc
      have hrun := he.runs hn hc (by rw [hfin]; decide)
      exact (runs_accept_bind_pos hret).mpr (runs_bind.mpr
        ⟨some _, d, runs_map.mpr ⟨_, hrun, rfl⟩,
          runs_expect_bind.mpr ⟨hfin, runs_pure.mpr ⟨rfl, rfl⟩⟩⟩)

/-! ## Statements by their parts -/

theorem runs_definition {n : Nat} {c d₁ d₂ d₃ : Cursor σ} {ts : List Token}
    {params : List String} {body : List Statement} {returns : Option Expression}
    (hdef : c.current.kind = .kwDef) (hname : c.advance.current.kind = .identifier)
    (hparams : (bracketed parameter).Runs c.advance.advance params d₁)
    (hbody : statements.Accepts n d₁ d₂ body) (hreturns : DerivesReturns ts returns)
    (hn : (returns.map Expression.nesting).getD 0 ≤ n) (hc : d₂.Consumes ts d₃)
    (hfin : d₃.current.kind = .kwEnd) :
    (definition n).Runs c
      ⟨c.advance.current.text, params, body, returns, c.current.position⟩ d₃.advance := by
  have hclosed := hreturns.current_mem hc hfin
  rw [definition, definitionOf_eq]
  exact runs_expect_bind.mpr ⟨hdef, runs_expect_bind.mpr ⟨hname, runs_bind.mpr
    ⟨params, d₁, hparams, runs_bind.mpr
      ⟨body, d₂, runs_statementsBefore hbody (by decide) hclosed,
        runs_returns hreturns hn hc hfin⟩⟩⟩⟩

theorem runs_conditional {n : Nat} {c d₁ d₂ : Cursor σ} {test : Condition}
    {body : List Statement} (hif : c.current.kind = .kwIf)
    (htest : (condition n).Runs c.advance test d₁) (hthen : d₁.current.kind = .kwThen)
    (hbody : statements.Accepts n d₁.advance d₂ body) (hfin : d₂.current.kind = .kwEnd) :
    (conditional n).Runs c ⟨test, body, c.current.position⟩ d₂.advance :=
  runs_expect_bind.mpr ⟨hif, runs_bind.mpr ⟨test, d₁, htest,
    runs_expect_bind.mpr ⟨hthen, runs_bind.mpr ⟨body, d₂.advance, runs_block hbody hfin,
      runs_pure.mpr ⟨rfl, rfl⟩⟩⟩⟩⟩

theorem runs_loop {n : Nat} {c d₁ d₂ d₃ d₄ : Cursor σ} {init : Declaration} {test : Relation}
    {step : Assignment} {body : List Statement} (hfor : c.current.kind = .kwFor)
    (hinit : (bareDeclaration n).Runs c.advance init d₁) (hsemi : d₁.current.kind = .semicolon)
    (htest : (relation n).Runs d₁.advance test d₂) (hsemi' : d₂.current.kind = .semicolon)
    (hstep : (assignment n).Runs d₂.advance step d₃) (hdo : d₃.current.kind = .kwDo)
    (hbody : statements.Accepts n d₃.advance d₄ body) (hfin : d₄.current.kind = .kwEnd) :
    (loop n).Runs c ⟨init, test, step, body, c.current.position⟩ d₄.advance :=
  runs_expect_bind.mpr ⟨hfor, runs_bind.mpr ⟨init, d₁, hinit,
    runs_expect_bind.mpr ⟨hsemi, runs_bind.mpr ⟨test, d₂, htest,
      runs_expect_bind.mpr ⟨hsemi', runs_bind.mpr ⟨step, d₃, hstep,
        runs_expect_bind.mpr ⟨hdo, runs_bind.mpr ⟨body, d₄.advance, runs_block hbody hfin,
          runs_pure.mpr ⟨rfl, rfl⟩⟩⟩⟩⟩⟩⟩⟩⟩

/-- A call is told from an assignment by its bracket. -/
theorem runs_callStatement {n : Nat} {c c' : Cursor σ} {made : Call}
    (h : (call n).Runs c made c') (hparen : c.advance.current.kind = .leftParen) :
    (statement n).Runs c (.call made) c' := by
  obtain ⟨hname, hargs⟩ := runs_expect_bind.mp h
  rw [statement_eq, statementOf, statementWith, runs_peek_bind, hname]
  refine runs_expect_bind.mpr ⟨hname, runs_peek_bind.mpr ?_⟩
  rw [hparen]
  exact runs_bind.mpr ⟨made, c', hargs, runs_pure.mpr ⟨rfl, rfl⟩⟩

theorem runs_assignmentStatement {n : Nat} {c c' : Cursor σ} {made : Assignment}
    (h : (assignment n).Runs c made c') (heq : c.advance.current.kind = .equals) :
    (statement n).Runs c (.assignment made) c' := by
  obtain ⟨hname, hvalue⟩ := runs_expect_bind.mp h
  obtain ⟨value, d, hvalue, hmade⟩ := runs_bind.mp hvalue
  obtain ⟨rfl, rfl⟩ := runs_pure.mp hmade
  rw [statement_eq, statementOf, statementWith, runs_peek_bind, hname]
  refine runs_expect_bind.mpr ⟨hname, runs_peek_bind.mpr ?_⟩
  rw [heq]
  exact runs_bind.mpr ⟨value, c', hvalue, runs_pure.mpr ⟨rfl, rfl⟩⟩

/-! ## Completeness -/

theorem StatementSymbol.Derives.accepts {s : StatementSymbol} {ts : List Token} {t : s.Tree}
    (h : s.Derives ts t) :
    ∀ {n : Nat} {c c' : Cursor σ}, s.nesting t ≤ n → c.Consumes ts c' →
      c'.current.kind ∉ goesOn → s.Accepts n c c' t := by
  induction h with
  | ofDefinition hd ih | ofConditional hd ih | ofLoop hd ih =>
      intro n c c' hn hc hfollow
      obtain ⟨m, rfl, hm⟩ := exists_level hn
      rw [Accepts, statement_eq, statementOf, statementWith, runs_peek_bind, hd.current_eq_keyword rfl hc]
      exact runs_map.mpr ⟨_, ih hm hc hfollow, rfl⟩
  | ofDeclaration hd =>
      intro n c c' hn hc hfollow
      have hvar : c.current.kind = .kwVar := by
        cases hd with
        | declaration hvar => rw [hc.1, hvar]
      rw [Accepts, statement_eq, statementOf, statementWith, runs_peek_bind, hvar]
      exact runs_map.mpr ⟨_, hd.runs hn hc hfollow, rfl⟩
  | ofCall hcall =>
      intro n c c' hn hc hfollow
      have hparen : c.advance.current.kind = .leftParen := by
        cases hcall with
        | call _ hargs => exact ExpressionSymbol.current_of_arguments hargs hc.2.2
      exact runs_callStatement (hcall.runs hn hc List.not_mem_nil) hparen
  | ofAssignment ha =>
      intro n c c' hn hc hfollow
      have heq : c.advance.current.kind = .equals := by
        cases ha with
        | assignment _ heq _ => rw [hc.2.2.1, heq]
      exact runs_assignmentStatement (ha.runs hn hc hfollow) heq
  | nil =>
      intro n c c' _ hc _ stop _ hstop
      obtain rfl := hc
      exact runs_repeatUntil_nil (advancing_statement n) hstop
  | cons hs hss ih ihrest =>
      intro n c c' hn hc hfollow stop hstarters hstop
      obtain ⟨hn₁, hn₂⟩ := Nat.max_le.mp hn
      obtain ⟨d, hcd, hdc'⟩ := Cursor.consumes_append.mp hc
      exact runs_repeatUntil_cons (advancing_statement n)
        (hstarters _ (hs.current_mem_starters hcd)) (ih hn₁ hcd (hss.not_goesOn hdc' hfollow))
        (ihrest hn₂ hdc' hfollow stop hstarters hstop)
  | definition hstart hname hparams _ hreturns hfin ihbody =>
      intro n c c' hn hc _
      obtain ⟨hn₁, hn₂⟩ := Nat.max_le.mp hn
      simp only [List.cons_append, List.append_assoc, Cursor.consumes_cons,
        Cursor.consumes_append, Cursor.consumes_nil] at hc
      obtain ⟨rfl, -, rfl, -, d₁, hd₁, d₂, hd₂, d₃, hd₃, rfl, -, rfl⟩ := hc
      have hclosed := hreturns.current_mem hd₃ hfin
      have hbody := ihbody hn₁ hd₂ fun hmem => goesOn_of_closers _ hclosed hmem
      exact runs_definition hstart hname (hparams.runs hd₁) hbody hreturns hn₂ hd₃ hfin
  | conditional hstart htest hthen _ hfin ihbody =>
      intro n c c' hn hc _
      obtain ⟨hn₁, hn₂⟩ := Nat.max_le.mp hn
      simp only [List.cons_append, List.append_assoc, Cursor.consumes_cons,
        Cursor.consumes_append, Cursor.consumes_nil] at hc
      obtain ⟨rfl, -, d₁, hd₁, rfl, -, d₂, hd₂, rfl, -, rfl⟩ := hc
      have htest := htest.runs hn₁ hd₁ (by rw [hthen]; decide)
      have hbody := ihbody hn₂ hd₂ (by rw [hfin]; decide)
      exact runs_conditional hstart htest hthen hbody hfin
  | loop hstart hinit hsemi htest hsemi' hstep hdo _ hfin ihbody =>
      intro n c c' hn hc _
      obtain ⟨⟨hn₁, hn₂⟩, hn₃, hn₄⟩ := (Nat.max_le.trans (and_congr Nat.max_le Nat.max_le)).mp hn
      simp only [List.cons_append, List.append_assoc, Cursor.consumes_cons,
        Cursor.consumes_append, Cursor.consumes_nil] at hc
      obtain ⟨rfl, -, d₁, hd₁, rfl, -, d₂, hd₂, rfl, -, d₃, hd₃, rfl, -, d₄, hd₄, rfl, -, rfl⟩ := hc
      have hinit := hinit.runs hn₁ hd₁ (by rw [hsemi]; decide)
      have htest := htest.runs hn₂ hd₂ (by rw [hsemi']; decide)
      have hstep := hstep.runs hn₃ hd₃ (by rw [hdo]; decide)
      have hbody := ihbody hn₄ hd₄ (by rw [hfin]; decide)
      exact runs_loop hstart hinit hsemi htest hsemi' hstep hdo hbody hfin

end WorkflowScript.Grammar
