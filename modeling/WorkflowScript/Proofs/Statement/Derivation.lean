import WorkflowScript.Proofs.Expression.Derivation
import WorkflowScript.Statement.Nesting

/-!
# Derivations of statements

The grammar of statements as a relation, as for expressions:

```text
assignment      := IDENT '=' expression
declaration     := 'var' IDENT '=' expression
bareDeclaration := declaration | IDENT '=' expression
parameters      := '(' ')' | '(' IDENT (',' IDENT)* ')'
returns         := ['return' expression]
statements      := statement*
statement       := definition | declaration | conditional | loop | call | assignment
definition      := 'def' IDENT parameters statements returns 'end'
conditional     := 'if' condition 'then' statements 'end'
loop            := 'for' bareDeclaration ';' relation ';' assignment 'do' statements 'end'
```

Only the last four productions and `statements` refer to one another.
-/

namespace WorkflowScript.Grammar

/-! ## Productions without statements in them -/

inductive DerivesAssignment : List Token → Assignment → Prop
  | assignment {name eq ts e} :
      name.kind = .identifier → eq.kind = .equals →
      ExpressionSymbol.expression.Derives ts e →
      DerivesAssignment (name :: eq :: ts) ⟨name.text, e, name.position⟩

inductive DerivesDeclaration : List Token → Declaration → Prop
  | declaration {var name eq ts e} :
      var.kind = .kwVar → name.kind = .identifier → eq.kind = .equals →
      ExpressionSymbol.expression.Derives ts e →
      DerivesDeclaration (var :: name :: eq :: ts) ⟨name.text, e, var.position⟩

/-- A declaration in the head of a loop: the position is the name's where
the keyword is missing. -/
inductive DerivesBareDeclaration : List Token → Declaration → Prop
  | keyword {ts d} : DerivesDeclaration ts d → DerivesBareDeclaration ts d
  | bare {name eq ts e} :
      name.kind = .identifier → eq.kind = .equals →
      ExpressionSymbol.expression.Derives ts e →
      DerivesBareDeclaration (name :: eq :: ts) ⟨name.text, e, name.position⟩

/-- Further parameters, each behind a comma. -/
inductive DerivesMoreParameters : List Token → List String → Prop
  | nil : DerivesMoreParameters [] []
  | cons {comma name ts names} :
      comma.kind = .comma → name.kind = .identifier → DerivesMoreParameters ts names →
      DerivesMoreParameters (comma :: name :: ts) (name.text :: names)

inductive DerivesParameters : List Token → List String → Prop
  | none {lp rp} :
      lp.kind = .leftParen → rp.kind = .rightParen → DerivesParameters [lp, rp] []
  | some {lp name ts rp names} :
      lp.kind = .leftParen → name.kind = .identifier → DerivesMoreParameters ts names →
      rp.kind = .rightParen → DerivesParameters (lp :: name :: ts ++ [rp]) (name.text :: names)

inductive DerivesReturns : List Token → Option Expression → Prop
  | none : DerivesReturns [] none
  | some {ret ts e} :
      ret.kind = .kwReturn → ExpressionSymbol.expression.Derives ts e →
      DerivesReturns (ret :: ts) (some e)

/-! The tokens of all these are tokens of the grammar. -/

theorem DerivesAssignment.proper {ts : List Token} {a : Assignment}
    (h : DerivesAssignment ts a) : ∀ x ∈ ts, x.Proper := by
  cases h with
  | assignment _ _ he =>
      have := he.proper
      simp_all [Token.Proper]

theorem DerivesDeclaration.proper {ts : List Token} {d : Declaration}
    (h : DerivesDeclaration ts d) : ∀ x ∈ ts, x.Proper := by
  cases h with
  | declaration _ _ _ he =>
      have := he.proper
      simp_all [Token.Proper]

theorem DerivesBareDeclaration.proper {ts : List Token} {d : Declaration}
    (h : DerivesBareDeclaration ts d) : ∀ x ∈ ts, x.Proper := by
  cases h with
  | keyword hd => exact hd.proper
  | bare _ _ he =>
      have := he.proper
      simp_all [Token.Proper]

theorem DerivesMoreParameters.proper {ts : List Token} {names : List String}
    (h : DerivesMoreParameters ts names) : ∀ x ∈ ts, x.Proper := by
  induction h with
  | nil => simp
  | cons _ _ _ ih => simp_all [Token.Proper]

theorem DerivesParameters.proper {ts : List Token} {names : List String}
    (h : DerivesParameters ts names) : ∀ x ∈ ts, x.Proper := by
  cases h with
  | none _ _ => simp_all [Token.Proper]
  | some _ _ hnames _ =>
      have := hnames.proper
      simp_all [or_imp, forall_and, Token.Proper]

theorem DerivesReturns.proper {ts : List Token} {returns : Option Expression}
    (h : DerivesReturns ts returns) : ∀ x ∈ ts, x.Proper := by
  cases h with
  | none => simp
  | some _ he =>
      have := he.proper
      simp_all [Token.Proper]

/-! ## Statements and their bodies -/

/-- The nonterminals whose sentences hold statements. -/
inductive StatementSymbol where
  | statement | statements | definition | conditional | loop
deriving DecidableEq

namespace StatementSymbol

@[reducible] def Tree : StatementSymbol → Type
  | statement => Statement
  | statements => List Statement
  | definition => Definition
  | conditional => Conditional
  | loop => Loop

/-- The levels of nesting that a tree needs. -/
def nesting : (s : StatementSymbol) → s.Tree → Nat
  | statement, s => s.nesting
  | statements, ss => nestingOfStatements ss
  | definition, d => d.nesting
  | conditional, c => c.nesting
  | loop, l => l.nesting

/-- `s.Derives ts t`: the tokens `ts` are a sentence of the nonterminal `s`,
and `t` is the tree they stand for. -/
inductive Derives : (s : StatementSymbol) → List Token → s.Tree → Prop
  | ofDefinition {ts d} :
      definition.Derives ts d → statement.Derives ts (Statement.definition d)
  | ofDeclaration {ts d} :
      DerivesDeclaration ts d → statement.Derives ts (Statement.declaration d)
  | ofConditional {ts c} :
      conditional.Derives ts c → statement.Derives ts (Statement.conditional c)
  | ofLoop {ts l} : loop.Derives ts l → statement.Derives ts (Statement.loop l)
  | ofCall {ts c} :
      ExpressionSymbol.call.Derives ts c → statement.Derives ts (Statement.call c)
  | ofAssignment {ts a} :
      DerivesAssignment ts a → statement.Derives ts (Statement.assignment a)
  | nil : statements.Derives [] []
  | cons {ts us s ss} :
      statement.Derives ts s → statements.Derives us ss → statements.Derives (ts ++ us) (s :: ss)
  | definition {start name ts us vs fin params body returns} :
      start.kind = .kwDef → name.kind = .identifier → DerivesParameters ts params →
      statements.Derives us body → DerivesReturns vs returns → fin.kind = .kwEnd →
      definition.Derives (start :: name :: ts ++ us ++ vs ++ [fin])
        (Definition.mk name.text params body returns start.position)
  | conditional {start ts thenWord us fin test body} :
      start.kind = .kwIf → ExpressionSymbol.condition.Derives ts test →
      thenWord.kind = .kwThen → statements.Derives us body → fin.kind = .kwEnd →
      conditional.Derives (start :: ts ++ thenWord :: us ++ [fin])
        (Conditional.mk test body start.position)
  | loop {start ts semi us semi' vs doWord ws fin init test step body} :
      start.kind = .kwFor → DerivesBareDeclaration ts init → semi.kind = .semicolon →
      ExpressionSymbol.relation.Derives us test → semi'.kind = .semicolon →
      DerivesAssignment vs step → doWord.kind = .kwDo → statements.Derives ws body →
      fin.kind = .kwEnd →
      loop.Derives (start :: ts ++ semi :: us ++ semi' :: vs ++ doWord :: ws ++ [fin])
        (Loop.mk init test step body start.position)

theorem Derives.proper {s : StatementSymbol} {ts : List Token} {t : s.Tree}
    (h : s.Derives ts t) : ∀ x ∈ ts, x.Proper := by
  induction h with
  | ofDefinition _ ih | ofConditional _ ih | ofLoop _ ih => exact ih
  | ofDeclaration h | ofCall h | ofAssignment h => exact h.proper
  | nil => simp
  | cons => simp_all [or_imp]
  | definition _ _ hparams _ hreturns _ _ =>
      have := hparams.proper
      have := hreturns.proper
      simp_all [or_imp, forall_and, Token.Proper]
  | conditional _ htest _ _ _ _ =>
      have := htest.proper
      simp_all [or_imp, forall_and, Token.Proper]
  | loop _ hinit _ htest _ hstep _ _ _ _ =>
      have := hinit.proper
      have := htest.proper
      have := hstep.proper
      simp_all [or_imp, forall_and, Token.Proper]

end StatementSymbol

end WorkflowScript.Grammar
