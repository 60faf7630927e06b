import WorkflowScript.Proofs.Statement.Spelling
import WorkflowScript.Proofs.Workflow.Derivation

/-!
# Spelling of names in workflows

The names of workflows and nodes and the targets of transitions are names,
and all scripts and guards are well spelled.
-/

namespace WorkflowScript

open WorkflowScript.Lexical

/-! ## Well-spelled trees -/

def Action.WellSpelled (a : Action) : Prop := WellSpelledStatements a.statements

def Transition.WellSpelled (t : Transition) : Prop :=
  isName t.target ∧ ∀ c ∈ t.guard, c.WellSpelled

def Node.WellSpelled (n : Node) : Prop :=
  isName n.name ∧ (∀ a ∈ n.actions, a.WellSpelled) ∧ ∀ t ∈ n.transitions, t.WellSpelled

def Workflow.WellSpelled (w : Workflow) : Prop :=
  isName w.name ∧ ∀ n ∈ w.nodes, n.WellSpelled

/-! ## Trees of derivations -/

namespace Grammar

theorem DerivesAction.wellSpelled {ts : List Token} {a : Action} (h : DerivesAction ts a)
    (hts : ∀ x ∈ ts, x.WellSpelled) : a.WellSpelled := by
  cases h with
  | action _ hbody _ =>
      exact StatementSymbol.Derives.wellSpelled hbody fun x hx => hts x (by simp [hx])

theorem DerivesTransition.wellSpelled {ts : List Token} {t : Transition}
    (h : DerivesTransition ts t) (hts : ∀ x ∈ ts, x.WellSpelled) : t.WellSpelled := by
  cases h with
  | transition _ _ hname hguard =>
      refine ⟨(hts _ (by simp)).isName hname, fun c hc => ?_⟩
      cases hguard with
      | none => cases hc
      | some _ htest =>
          cases hc
          exact ExpressionSymbol.Derives.wellSpelled htest fun x hx => hts x (by simp [hx])

theorem DerivesMembers.wellSpelled {ts : List Token} {as : List Action} {trs : List Transition}
    (h : DerivesMembers ts as trs) (hts : ∀ x ∈ ts, x.WellSpelled) :
    (∀ a ∈ as, a.WellSpelled) ∧ ∀ t ∈ trs, t.WellSpelled := by
  induction h with
  | nil => simp
  | action ha _ ih =>
      obtain ⟨hts, hus⟩ := List.forall_mem_append.mp hts
      exact ⟨List.forall_mem_cons.mpr ⟨ha.wellSpelled hts, (ih hus).1⟩, (ih hus).2⟩
  | transition ht _ ih =>
      obtain ⟨hts, hus⟩ := List.forall_mem_append.mp hts
      exact ⟨(ih hus).1, List.forall_mem_cons.mpr ⟨ht.wellSpelled hts, (ih hus).2⟩⟩

theorem DerivesNode.wellSpelled {ts : List Token} {n : Node} (h : DerivesNode ts n)
    (hts : ∀ x ∈ ts, x.WellSpelled) : n.WellSpelled := by
  cases h with
  | node _ hname hmembers _ =>
      exact ⟨(hts _ (by simp)).isName hname, hmembers.wellSpelled fun x hx => hts x (by simp [hx])⟩

theorem DerivesNodes.wellSpelled {ts : List Token} {ns : List Node} (h : DerivesNodes ts ns)
    (hts : ∀ x ∈ ts, x.WellSpelled) : ∀ n ∈ ns, n.WellSpelled := by
  induction h with
  | nil => simp
  | cons hn _ ih =>
      obtain ⟨hts, hus⟩ := List.forall_mem_append.mp hts
      exact List.forall_mem_cons.mpr ⟨hn.wellSpelled hts, ih hus⟩

theorem DerivesWorkflow.wellSpelled {ts : List Token} {w : Workflow} (h : DerivesWorkflow ts w)
    (hts : ∀ x ∈ ts, x.WellSpelled) : w.WellSpelled := by
  cases h with
  | workflow _ hname hnodes _ =>
      exact ⟨(hts _ (by simp)).isName hname, hnodes.wellSpelled fun x hx => hts x (by simp [hx])⟩

end Grammar

end WorkflowScript
