import WorkflowScript.Expression.Nesting
import WorkflowScript.Token.Basic

/-!
# Derivations of expressions

The grammar of expressions as a relation between token sequences and trees,
with one rule for each alternative of each production:

```text
condition     := conjunction alternatives
alternatives  := ('or' conjunction)*
conjunction   := clause conjuncts
conjuncts     := ('and' clause)*
clause        := relation | 'not' relation
relation      := expression | expression ('>' | '<' | '=') expression
expression    := term addends
addends       := (('+' | '-') term)*
term          := factor multipliers
multipliers   := (('*' | '/') factor)*
factor        := IDENT | call | INT | STRING | 'true' | 'false' | '(' condition ')'
call          := IDENT arguments
arguments     := '(' ')' | '(' expression moreArguments ')'
moreArguments := (',' expression)*
```

The relation knows nothing of lookahead, of levels or of a parser. Names,
literals and positions in a tree are those of its tokens.
-/

namespace WorkflowScript

/-! ## Operators as tokens -/

def AddOp.kind : AddOp → TokenKind
  | .plus => .plus
  | .minus => .minus

def MulOp.kind : MulOp → TokenKind
  | .times => .star
  | .divide => .slash

def RelOp.kind : RelOp → TokenKind
  | .greater => .greater
  | .less => .less
  | .equal => .equals

/-- A token of a kind that some rule of the grammar names. -/
def Token.Proper (t : Token) : Prop := t.kind ≠ .invalid ∧ t.kind ≠ .endOfInput

theorem Token.Proper.of_kind {t : Token} {k : TokenKind} (h : t.kind = k)
    (hk : k ≠ .invalid ∧ k ≠ .endOfInput) : t.Proper := by
  subst h
  exact hk

namespace Grammar

/-! ## Nonterminals -/

/-- The nonterminals of the expression grammar. -/
inductive ExpressionSymbol where
  | condition | alternatives | conjunction | conjuncts | clause | relation
  | expression | addends | term | multipliers | factor
  | call | arguments | moreArguments
deriving DecidableEq

namespace ExpressionSymbol

/-- What the sentences of a nonterminal stand for. -/
@[reducible] def Tree : ExpressionSymbol → Type
  | condition => Condition
  | alternatives => List Conjunction
  | conjunction => Conjunction
  | conjuncts => List Clause
  | clause => Clause
  | relation => Relation
  | expression => Expression
  | addends => List (AddOp × Term)
  | term => Term
  | multipliers => List (MulOp × Factor)
  | factor => Factor
  | call => Call
  | arguments => List Expression
  | moreArguments => List Expression

/-- The levels of nesting that a tree needs. An argument list takes a level
of its own, empty or not. -/
def nesting : (s : ExpressionSymbol) → s.Tree → Nat
  | condition, c => c.nesting
  | alternatives, cs => nestingOfConjunctions cs
  | conjunction, c => c.nesting
  | conjuncts, cs => nestingOfClauses cs
  | clause, c => c.nesting
  | relation, r => r.nesting
  | expression, e => e.nesting
  | addends, ts => nestingOfAddends ts
  | term, t => t.nesting
  | multipliers, fs => nestingOfMultipliers fs
  | factor, f => f.nesting
  | call, c => c.nesting
  | arguments, es => nestingOfArguments es + 1
  | moreArguments, es => nestingOfArguments es

/-! ## Rules -/

/-- `s.Derives ts t`: the tokens `ts` are a sentence of the nonterminal `s`,
and `t` is the tree they stand for. -/
inductive Derives : (s : ExpressionSymbol) → List Token → s.Tree → Prop
  | condition {ts us first rest} :
      conjunction.Derives ts first → alternatives.Derives us rest →
      condition.Derives (ts ++ us) (Condition.mk first rest)
  | noAlternative : alternatives.Derives [] []
  | alternative {or ts us c cs} :
      or.kind = .kwOr → conjunction.Derives ts c → alternatives.Derives us cs →
      alternatives.Derives (or :: ts ++ us) (c :: cs)
  | conjunction {ts us first rest} :
      clause.Derives ts first → conjuncts.Derives us rest →
      conjunction.Derives (ts ++ us) (Conjunction.mk first rest)
  | noConjunct : conjuncts.Derives [] []
  | conjunct {and ts us c cs} :
      and.kind = .kwAnd → clause.Derives ts c → conjuncts.Derives us cs →
      conjuncts.Derives (and :: ts ++ us) (c :: cs)
  | clause {ts r} : relation.Derives ts r → clause.Derives ts (Clause.mk false r)
  | negation {not ts r} :
      not.kind = .kwNot → relation.Derives ts r →
      clause.Derives (not :: ts) (Clause.mk true r)
  | relation {ts e} : expression.Derives ts e → relation.Derives ts (Relation.mk e none)
  | comparison {ts sign us left op right} :
      expression.Derives ts left → sign.kind = RelOp.kind op → expression.Derives us right →
      relation.Derives (ts ++ sign :: us) (Relation.mk left (some (op, right)))
  | expression {ts us first rest} :
      term.Derives ts first → addends.Derives us rest →
      expression.Derives (ts ++ us) (Expression.mk first rest)
  | noAddend : addends.Derives [] []
  | addend {sign ts us op t rest} :
      sign.kind = AddOp.kind op → term.Derives ts t → addends.Derives us rest →
      addends.Derives (sign :: ts ++ us) ((op, t) :: rest)
  | term {ts us first rest} :
      factor.Derives ts first → multipliers.Derives us rest →
      term.Derives (ts ++ us) (Term.mk first rest)
  | noMultiplier : multipliers.Derives [] []
  | multiplier {sign ts us op f rest} :
      sign.kind = MulOp.kind op → factor.Derives ts f → multipliers.Derives us rest →
      multipliers.Derives (sign :: ts ++ us) ((op, f) :: rest)
  | variableFactor {name} :
      name.kind = .identifier → factor.Derives [name] (Factor.variable name.text name.position)
  | callFactor {ts c} : call.Derives ts c → factor.Derives ts (Factor.call c)
  | integer {digits} :
      digits.kind = .integer → factor.Derives [digits] (Factor.integer digits.text)
  | string {quoted} :
      quoted.kind = .string → factor.Derives [quoted] (Factor.string quoted.text)
  | true {word} : word.kind = .kwTrue → factor.Derives [word] (Factor.bool true)
  | false {word} : word.kind = .kwFalse → factor.Derives [word] (Factor.bool false)
  | group {lp ts rp c} :
      lp.kind = .leftParen → condition.Derives ts c → rp.kind = .rightParen →
      factor.Derives (lp :: ts ++ [rp]) (Factor.group c)
  | call {name ts args} :
      name.kind = .identifier → arguments.Derives ts args →
      call.Derives (name :: ts) (Call.mk name.text args name.position)
  | noArguments {lp rp} :
      lp.kind = .leftParen → rp.kind = .rightParen → arguments.Derives [lp, rp] []
  | arguments {lp ts us rp e es} :
      lp.kind = .leftParen → expression.Derives ts e → moreArguments.Derives us es →
      rp.kind = .rightParen → arguments.Derives (lp :: ts ++ us ++ [rp]) (e :: es)
  | noMoreArguments : moreArguments.Derives [] []
  | moreArguments {comma ts us e es} :
      comma.kind = .comma → expression.Derives ts e → moreArguments.Derives us es →
      moreArguments.Derives (comma :: ts ++ us) (e :: es)

/-- Neither invalid input nor the end of the input is part of a sentence. -/
theorem Derives.proper {s : ExpressionSymbol} {ts : List Token} {t : s.Tree}
    (h : s.Derives ts t) : ∀ x ∈ ts, x.Proper := by
  induction h with
  | @comparison _ _ _ _ op _ _ hsign _ | @addend _ _ _ op _ _ hsign _ _
  | @multiplier _ _ _ op _ _ hsign _ _ =>
      have hsign := Token.Proper.of_kind hsign (by cases op <;> decide)
      simp_all [or_imp]
  | _ => simp_all [or_imp, forall_and, Token.Proper]

end ExpressionSymbol

end Grammar

end WorkflowScript
