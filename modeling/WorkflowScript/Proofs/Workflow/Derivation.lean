import WorkflowScript.Proofs.Statement.Derivation
import WorkflowScript.Workflow.Nesting

/-!
# Derivations of workflows

```text
workflow   := 'workflow' IDENT node* 'end'
node       := ('node' | 'state' | 'join') IDENT (action | transition)* 'end'
action     := ('enter' | 'leave') statements 'end'
transition := 'transition' 'to' IDENT guard
guard      := ['if' condition]
```

A node may mix its actions and transitions; the relation for its members
collects each kind in order.
-/

namespace WorkflowScript

/-! ## Keywords of nodes and actions -/

def NodeKind.kind : NodeKind → TokenKind
  | .node => .kwNode
  | .state => .kwState
  | .join => .kwJoin

def Phase.kind : Phase → TokenKind
  | .enter => .kwEnter
  | .leave => .kwLeave

theorem NodeKind.spelling?_kind (k : NodeKind) : k.kind.spelling? = some k.keyword := by
  cases k <;> rfl

theorem Phase.spelling?_kind (p : Phase) : p.kind.spelling? = some p.keyword := by
  cases p <;> rfl

namespace Grammar

/-! ## Rules -/

inductive DerivesAction : List Token → Action → Prop
  | action {start ts fin phase statements} :
      start.kind = Phase.kind phase → StatementSymbol.statements.Derives ts statements →
      fin.kind = .kwEnd →
      DerivesAction (start :: ts ++ [fin]) ⟨phase, statements, start.position⟩

inductive DerivesGuard : List Token → Option Condition → Prop
  | none : DerivesGuard [] none
  | some {ifWord ts c} :
      ifWord.kind = .kwIf → ExpressionSymbol.condition.Derives ts c →
      DerivesGuard (ifWord :: ts) (some c)

inductive DerivesTransition : List Token → Transition → Prop
  | transition {start toWord target ts guard} :
      start.kind = .kwTransition → toWord.kind = .kwTo → target.kind = .identifier →
      DerivesGuard ts guard →
      DerivesTransition (start :: toWord :: target :: ts) ⟨target.text, guard, start.position⟩

/-- Actions and transitions in any order, collected into two lists. -/
inductive DerivesMembers : List Token → List Action → List Transition → Prop
  | nil : DerivesMembers [] [] []
  | action {ts us a as trs} :
      DerivesAction ts a → DerivesMembers us as trs → DerivesMembers (ts ++ us) (a :: as) trs
  | transition {ts us t as trs} :
      DerivesTransition ts t → DerivesMembers us as trs →
      DerivesMembers (ts ++ us) as (t :: trs)

inductive DerivesNode : List Token → Node → Prop
  | node {start name ts fin kind actions transitions} :
      start.kind = NodeKind.kind kind → name.kind = .identifier →
      DerivesMembers ts actions transitions → fin.kind = .kwEnd →
      DerivesNode (start :: name :: ts ++ [fin])
        ⟨kind, name.text, actions, transitions, start.position⟩

inductive DerivesNodes : List Token → List Node → Prop
  | nil : DerivesNodes [] []
  | cons {ts us n ns} :
      DerivesNode ts n → DerivesNodes us ns → DerivesNodes (ts ++ us) (n :: ns)

inductive DerivesWorkflow : List Token → Workflow → Prop
  | workflow {start name ts fin nodes} :
      start.kind = .kwWorkflow → name.kind = .identifier → DerivesNodes ts nodes →
      fin.kind = .kwEnd →
      DerivesWorkflow (start :: name :: ts ++ [fin]) ⟨name.text, nodes, start.position⟩

/-! ## Tokens of the grammar -/

theorem DerivesAction.proper {ts : List Token} {a : Action} (h : DerivesAction ts a) :
    ∀ x ∈ ts, x.Proper := by
  cases h with
  | @action _ _ _ phase _ hstart hbody _ =>
      have hstart := Token.Proper.of_kind hstart (by cases phase <;> decide)
      have := hbody.proper
      simp_all [or_imp, forall_and, Token.Proper]

theorem DerivesTransition.proper {ts : List Token} {t : Transition} (h : DerivesTransition ts t) :
    ∀ x ∈ ts, x.Proper := by
  cases h with
  | transition _ _ _ hguard =>
      cases hguard with
      | none => simp_all [Token.Proper]
      | some _ htest =>
          have := htest.proper
          simp_all [Token.Proper]

theorem DerivesMembers.proper {ts : List Token} {as : List Action} {trs : List Transition}
    (h : DerivesMembers ts as trs) : ∀ x ∈ ts, x.Proper := by
  induction h with
  | nil => simp
  | action ha _ ih => exact List.forall_mem_append.mpr ⟨ha.proper, ih⟩
  | transition ht _ ih => exact List.forall_mem_append.mpr ⟨ht.proper, ih⟩

theorem DerivesNode.proper {ts : List Token} {n : Node} (h : DerivesNode ts n) :
    ∀ x ∈ ts, x.Proper := by
  cases h with
  | @node _ _ _ _ kind _ _ hstart _ hmembers _ =>
      have hstart := Token.Proper.of_kind hstart (by cases kind <;> decide)
      have := hmembers.proper
      simp_all [or_imp, forall_and, Token.Proper]

theorem DerivesNodes.proper {ts : List Token} {ns : List Node} (h : DerivesNodes ts ns) :
    ∀ x ∈ ts, x.Proper := by
  induction h with
  | nil => simp
  | cons hn _ ih => exact List.forall_mem_append.mpr ⟨hn.proper, ih⟩

theorem DerivesWorkflow.proper {ts : List Token} {w : Workflow} (h : DerivesWorkflow ts w) :
    ∀ x ∈ ts, x.Proper := by
  cases h with
  | workflow _ _ hnodes _ =>
      have := hnodes.proper
      simp_all [or_imp, forall_and, Token.Proper]

end Grammar

end WorkflowScript
