import WorkflowScript.Fragment.Labels
import WorkflowScript.Proofs.Workflow.Derivation

/-!
# Labels go from tokens into trees, and nowhere else

A derivation copies the texts and positions of some of its tokens into its
tree and asks nothing of them. So tokens with other texts and positions have
the same tree with these on it (`Derives.relabel`, for each family of
nonterminals). What the two functions are does not matter.
-/

namespace WorkflowScript

namespace Grammar

variable (f : String → String) (g : Position → Position)

/-! ## Expressions -/

namespace ExpressionSymbol

/-- Other labels on a tree. -/
def relabel : (s : ExpressionSymbol) → s.Tree → s.Tree
  | condition, c => c.relabel f g
  | alternatives, cs => relabelConjunctions f g cs
  | conjunction, c => c.relabel f g
  | conjuncts, cs => relabelClauses f g cs
  | clause, c => c.relabel f g
  | relation, r => r.relabel f g
  | expression, e => e.relabel f g
  | addends, ts => relabelAddends f g ts
  | term, t => t.relabel f g
  | multipliers, fs => relabelMultipliers f g fs
  | factor, x => x.relabel f g
  | call, c => c.relabel f g
  | arguments, es => relabelArguments f g es
  | moreArguments, es => relabelArguments f g es

theorem Derives.relabel {s : ExpressionSymbol} {ts : List Token} {t : s.Tree}
    (h : s.Derives ts t) : s.Derives (ts.map (Token.relabel f g)) (s.relabel f g t) := by
  induction h with
  | condition _ _ ih ih' => rw [List.map_append]; exact .condition ih ih'
  | noAlternative => exact .noAlternative
  | alternative hor _ _ ih ih' => rw [List.map_append]; exact .alternative hor ih ih'
  | conjunction _ _ ih ih' => rw [List.map_append]; exact .conjunction ih ih'
  | noConjunct => exact .noConjunct
  | conjunct hand _ _ ih ih' => rw [List.map_append]; exact .conjunct hand ih ih'
  | clause _ ih => exact .clause ih
  | negation hnot _ ih => exact .negation hnot ih
  | relation _ ih => exact .relation ih
  | comparison _ hsign _ ih ih' => rw [List.map_append]; exact .comparison ih hsign ih'
  | expression _ _ ih ih' => rw [List.map_append]; exact .expression ih ih'
  | noAddend => exact .noAddend
  | addend hsign _ _ ih ih' => rw [List.map_append]; exact .addend hsign ih ih'
  | term _ _ ih ih' => rw [List.map_append]; exact .term ih ih'
  | noMultiplier => exact .noMultiplier
  | multiplier hsign _ _ ih ih' => rw [List.map_append]; exact .multiplier hsign ih ih'
  | variableFactor hname => exact .variableFactor hname
  | callFactor _ ih => exact .callFactor ih
  | integer hdigits => exact .integer hdigits
  | string hquoted => exact .string hquoted
  | true hword => exact .true hword
  | false hword => exact .false hword
  | group hlp _ hrp ih => rw [List.map_append]; exact .group hlp ih hrp
  | call hname _ ih => exact .call hname ih
  | noArguments hlp hrp => exact .noArguments hlp hrp
  | arguments hlp _ _ hrp ih ih' =>
      simp only [List.map_append, List.map_cons, List.map_nil]
      exact .arguments hlp ih ih' hrp
  | noMoreArguments => exact .noMoreArguments
  | moreArguments hcomma _ _ ih ih' => rw [List.map_append]; exact .moreArguments hcomma ih ih'

end ExpressionSymbol

/-! ## Statements -/

theorem DerivesAssignment.relabel {ts : List Token} {a : Assignment}
    (h : DerivesAssignment ts a) :
    DerivesAssignment (ts.map (Token.relabel f g)) (a.relabel f g) := by
  cases h with
  | assignment hname heq he => exact .assignment hname heq (he.relabel f g)

theorem DerivesDeclaration.relabel {ts : List Token} {d : Declaration}
    (h : DerivesDeclaration ts d) :
    DerivesDeclaration (ts.map (Token.relabel f g)) (d.relabel f g) := by
  cases h with
  | declaration hvar hname heq he => exact .declaration hvar hname heq (he.relabel f g)

theorem DerivesBareDeclaration.relabel {ts : List Token} {d : Declaration}
    (h : DerivesBareDeclaration ts d) :
    DerivesBareDeclaration (ts.map (Token.relabel f g)) (d.relabel f g) := by
  cases h with
  | keyword hd => exact .keyword (hd.relabel f g)
  | bare hname heq he => exact .bare hname heq (he.relabel f g)

theorem DerivesMoreParameters.relabel {ts : List Token} {names : List String}
    (h : DerivesMoreParameters ts names) :
    DerivesMoreParameters (ts.map (Token.relabel f g)) (names.map f) := by
  induction h with
  | nil => exact .nil
  | cons hcomma hname _ ih => exact .cons hcomma hname ih

theorem DerivesParameters.relabel {ts : List Token} {names : List String}
    (h : DerivesParameters ts names) :
    DerivesParameters (ts.map (Token.relabel f g)) (names.map f) := by
  cases h with
  | none hlp hrp => exact .none hlp hrp
  | some hlp hname hnames hrp =>
      rw [List.map_append]
      exact .some hlp hname (hnames.relabel f g) hrp

theorem DerivesReturns.relabel {ts : List Token} {returns : Option Expression}
    (h : DerivesReturns ts returns) :
    DerivesReturns (ts.map (Token.relabel f g)) (returns.map (Expression.relabel f g)) := by
  cases h with
  | none => exact .none
  | some hret he => exact .some hret (he.relabel f g)

namespace StatementSymbol

/-- Other labels on a tree. -/
def relabel : (s : StatementSymbol) → s.Tree → s.Tree
  | statement, s => s.relabel f g
  | statements, ss => relabelStatements f g ss
  | definition, d => d.relabel f g
  | conditional, c => c.relabel f g
  | loop, l => l.relabel f g

theorem Derives.relabel {s : StatementSymbol} {ts : List Token} {t : s.Tree}
    (h : s.Derives ts t) : s.Derives (ts.map (Token.relabel f g)) (s.relabel f g t) := by
  induction h with
  | ofDefinition _ ih => exact .ofDefinition ih
  | ofDeclaration hd => exact .ofDeclaration (hd.relabel f g)
  | ofConditional _ ih => exact .ofConditional ih
  | ofLoop _ ih => exact .ofLoop ih
  | ofCall hc => exact .ofCall (hc.relabel f g)
  | ofAssignment ha => exact .ofAssignment (ha.relabel f g)
  | nil => exact .nil
  | cons _ _ ih ih' => rw [List.map_append]; exact .cons ih ih'
  | definition hstart hname hparams _ hreturns hfin ih =>
      simp only [List.map_append, List.map_cons, List.map_nil]
      exact .definition hstart hname (hparams.relabel f g) ih (hreturns.relabel f g) hfin
  | conditional hstart htest hthen _ hfin ih =>
      simp only [List.map_append, List.map_cons, List.map_nil]
      exact .conditional hstart (htest.relabel f g) hthen ih hfin
  | loop hstart hinit hsemi htest hsemi' hstep hdo _ hfin ih =>
      simp only [List.map_append, List.map_cons, List.map_nil]
      exact .loop hstart (hinit.relabel f g) hsemi (htest.relabel f g) hsemi' (hstep.relabel f g)
        hdo ih hfin

end StatementSymbol

/-! ## Workflows -/

theorem DerivesAction.relabel {ts : List Token} {a : Action} (h : DerivesAction ts a) :
    DerivesAction (ts.map (Token.relabel f g)) (a.relabel f g) := by
  cases h with
  | action hstart hbody hfin =>
      rw [List.map_append]
      exact .action hstart (hbody.relabel f g) hfin

theorem DerivesGuard.relabel {ts : List Token} {guard : Option Condition}
    (h : DerivesGuard ts guard) :
    DerivesGuard (ts.map (Token.relabel f g)) (guard.map (Condition.relabel f g)) := by
  cases h with
  | none => exact .none
  | some hif htest => exact .some hif (htest.relabel f g)

theorem DerivesTransition.relabel {ts : List Token} {t : Transition}
    (h : DerivesTransition ts t) :
    DerivesTransition (ts.map (Token.relabel f g)) (t.relabel f g) := by
  cases h with
  | transition hstart hto htarget hguard =>
      exact .transition hstart hto htarget (hguard.relabel f g)

theorem DerivesMembers.relabel {ts : List Token} {as : List Action} {trs : List Transition}
    (h : DerivesMembers ts as trs) :
    DerivesMembers (ts.map (Token.relabel f g)) (as.map (Action.relabel f g))
      (trs.map (Transition.relabel f g)) := by
  induction h with
  | nil => exact .nil
  | action ha _ ih => rw [List.map_append]; exact .action (ha.relabel f g) ih
  | transition ht _ ih => rw [List.map_append]; exact .transition (ht.relabel f g) ih

theorem DerivesNode.relabel {ts : List Token} {n : Node} (h : DerivesNode ts n) :
    DerivesNode (ts.map (Token.relabel f g)) (n.relabel f g) := by
  cases h with
  | node hstart hname hmembers hfin =>
      rw [List.map_append]
      exact .node hstart hname (hmembers.relabel f g) hfin

theorem DerivesNodes.relabel {ts : List Token} {ns : List Node} (h : DerivesNodes ts ns) :
    DerivesNodes (ts.map (Token.relabel f g)) (ns.map (Node.relabel f g)) := by
  induction h with
  | nil => exact .nil
  | cons hn _ ih => rw [List.map_append]; exact .cons (hn.relabel f g) ih

theorem DerivesWorkflow.relabel {ts : List Token} {w : Workflow} (h : DerivesWorkflow ts w) :
    DerivesWorkflow (ts.map (Token.relabel f g)) (w.relabel f g) := by
  cases h with
  | workflow hstart hname hnodes hfin =>
      rw [List.map_append]
      exact .workflow hstart hname (hnodes.relabel f g) hfin

end Grammar

end WorkflowScript
