import WorkflowScript.Proofs.Expression.Spelling
import WorkflowScript.Proofs.Statement.Derivation

/-!
# Spelling of names in statements

As for expressions: defined, declared, assigned and called names and
parameters are names, at every depth.
-/

namespace WorkflowScript

open WorkflowScript.Lexical

/-! ## Well-spelled trees -/

def Declaration.WellSpelled (d : Declaration) : Prop := isName d.name ∧ d.value.WellSpelled

def Assignment.WellSpelled (a : Assignment) : Prop := isName a.name ∧ a.value.WellSpelled

def WellSpelledParameters (params : List String) : Prop := ∀ name ∈ params, isName name

def WellSpelledReturns : Option Expression → Prop
  | none => True
  | some value => value.WellSpelled

mutual

def Statement.WellSpelled : Statement → Prop
  | .definition d => d.WellSpelled
  | .declaration d => d.WellSpelled
  | .assignment a => a.WellSpelled
  | .conditional c => c.WellSpelled
  | .loop l => l.WellSpelled
  | .call c => c.WellSpelled

def Definition.WellSpelled : Definition → Prop
  | ⟨name, params, body, returns, _⟩ =>
    isName name ∧ WellSpelledParameters params ∧ WellSpelledStatements body ∧
      WellSpelledReturns returns

def Conditional.WellSpelled : Conditional → Prop
  | ⟨condition, body, _⟩ => condition.WellSpelled ∧ WellSpelledStatements body

def Loop.WellSpelled : Loop → Prop
  | ⟨init, condition, step, body, _⟩ =>
    init.WellSpelled ∧ condition.WellSpelled ∧ step.WellSpelled ∧ WellSpelledStatements body

def WellSpelledStatements : List Statement → Prop
  | [] => True
  | s :: ss => s.WellSpelled ∧ WellSpelledStatements ss

end

/-! ## Trees of derivations -/

namespace Grammar

theorem DerivesAssignment.wellSpelled {ts : List Token} {a : Assignment}
    (h : DerivesAssignment ts a) (hts : ∀ x ∈ ts, x.WellSpelled) : a.WellSpelled := by
  cases h with
  | assignment hname _ he =>
      exact ⟨(hts _ (by simp)).isName hname, he.wellSpelled fun x hx => hts x (by simp [hx])⟩

theorem DerivesDeclaration.wellSpelled {ts : List Token} {d : Declaration}
    (h : DerivesDeclaration ts d) (hts : ∀ x ∈ ts, x.WellSpelled) : d.WellSpelled := by
  cases h with
  | declaration _ hname _ he =>
      exact ⟨(hts _ (by simp)).isName hname, he.wellSpelled fun x hx => hts x (by simp [hx])⟩

theorem DerivesBareDeclaration.wellSpelled {ts : List Token} {d : Declaration}
    (h : DerivesBareDeclaration ts d) (hts : ∀ x ∈ ts, x.WellSpelled) : d.WellSpelled := by
  cases h with
  | keyword hd => exact hd.wellSpelled hts
  | bare hname _ he =>
      exact ⟨(hts _ (by simp)).isName hname, he.wellSpelled fun x hx => hts x (by simp [hx])⟩

theorem DerivesMoreParameters.wellSpelled {ts : List Token} {names : List String}
    (h : DerivesMoreParameters ts names) (hts : ∀ x ∈ ts, x.WellSpelled) :
    WellSpelledParameters names := by
  induction h with
  | nil => exact fun _ hx => nomatch hx
  | cons _ hname _ ih =>
      have hnames := ih fun x hx => hts x (by simp [hx])
      exact List.forall_mem_cons.mpr ⟨(hts _ (by simp)).isName hname, hnames⟩

theorem DerivesParameters.wellSpelled {ts : List Token} {names : List String}
    (h : DerivesParameters ts names) (hts : ∀ x ∈ ts, x.WellSpelled) :
    WellSpelledParameters names := by
  cases h with
  | none _ _ => exact fun _ hx => nomatch hx
  | some _ hname hnames _ =>
      have hmore := hnames.wellSpelled fun x hx => hts x (by simp [hx])
      exact List.forall_mem_cons.mpr ⟨(hts _ (by simp)).isName hname, hmore⟩

theorem DerivesReturns.wellSpelled {ts : List Token} {returns : Option Expression}
    (h : DerivesReturns ts returns) (hts : ∀ x ∈ ts, x.WellSpelled) :
    WellSpelledReturns returns := by
  cases h with
  | none => trivial
  | some _ he => exact he.wellSpelled fun x hx => hts x (by simp [hx])

namespace StatementSymbol

def WellSpelled : (s : StatementSymbol) → s.Tree → Prop
  | statement, s => s.WellSpelled
  | statements, ss => WellSpelledStatements ss
  | definition, d => d.WellSpelled
  | conditional, c => c.WellSpelled
  | loop, l => l.WellSpelled

/-- Well-spelled tokens stand for a well-spelled tree. -/
theorem Derives.wellSpelled {s : StatementSymbol} {ts : List Token} {t : s.Tree}
    (h : s.Derives ts t) (hts : ∀ x ∈ ts, x.WellSpelled) : s.WellSpelled t := by
  induction h with
  | ofDefinition _ ih | ofConditional _ ih | ofLoop _ ih => exact ih hts
  | ofDeclaration h | ofCall h | ofAssignment h => exact h.wellSpelled hts
  | nil => trivial
  | cons _ _ ih ih' =>
      exact ⟨ih fun x hx => hts x (by simp [hx]), ih' fun x hx => hts x (by simp [hx])⟩
  | definition _ hname hparams _ hreturns _ ih =>
      exact ⟨(hts _ (by simp)).isName hname, hparams.wellSpelled fun x hx => hts x (by simp [hx]),
        ih fun x hx => hts x (by simp [hx]), hreturns.wellSpelled fun x hx => hts x (by simp [hx])⟩
  | conditional _ htest _ _ _ ih =>
      exact ⟨htest.wellSpelled fun x hx => hts x (by simp [hx]),
        ih fun x hx => hts x (by simp [hx])⟩
  | loop _ hinit _ htest _ hstep _ _ _ ih =>
      exact ⟨hinit.wellSpelled fun x hx => hts x (by simp [hx]),
        htest.wellSpelled fun x hx => hts x (by simp [hx]),
        hstep.wellSpelled fun x hx => hts x (by simp [hx]), ih fun x hx => hts x (by simp [hx])⟩

end StatementSymbol

end Grammar

end WorkflowScript
