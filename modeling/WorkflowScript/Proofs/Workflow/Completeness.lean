import WorkflowScript.Proofs.Statement.Completeness
import WorkflowScript.Proofs.Workflow.Recognition

/-!
# Every derivation of a workflow is parsed

The converse of recognition for the outer layers. A transition without a
guard must not be followed by `if`; in the body of a node it never is.
-/

namespace WorkflowScript.Grammar

open WorkflowScript.Parser

variable {σ : Type} [TokenSource σ]

/-! ## Members of nodes -/

theorem runs_announced {κ : Type} {read? : TokenKind → Option κ} {expected : List TokenKind}
    {c : Cursor σ} {v : κ} (h : read? c.current.kind = some v) :
    (announced read? expected).Runs c ⟨v, c.current⟩ c.advance := by
  rw [announced, runs_peek_bind, h]
  exact runs_advance_bind.mpr (runs_pure.mpr ⟨rfl, rfl⟩)

theorem DerivesAction.runs {n : Nat} {c c' : Cursor σ} {ts : List Token} {a : Action}
    (h : DerivesAction ts a) (hn : a.nesting ≤ n) (hc : c.Consumes ts c') :
    (Grammar.action n).Runs c a c' := by
  cases h with
  | action hstart hbody hfin =>
      simp only [List.cons_append, Cursor.consumes_cons, Cursor.consumes_append,
        Cursor.consumes_nil] at hc
      obtain ⟨rfl, -, d, hcd, rfl, -, rfl⟩ := hc
      have hbody := hbody.accepts hn hcd (by rw [hfin]; decide)
      exact runs_bind.mpr ⟨_, _, runs_announced (ofKeyword?_phase.mpr hstart),
        runs_bind.mpr ⟨_, _, runs_block hbody hfin, runs_pure.mpr ⟨rfl, rfl⟩⟩⟩

theorem DerivesTransition.runs {n : Nat} {c c' : Cursor σ} {ts : List Token} {t : Transition}
    (h : DerivesTransition ts t) (hn : t.nesting ≤ n) (hc : c.Consumes ts c')
    (hif : c'.current.kind ≠ .kwIf)
    (hfollow : c'.current.kind ∉ ExpressionSymbol.continuers .condition) :
    (Grammar.transition n).Runs c t c' := by
  cases h with
  | transition hstart hto htarget hguard =>
      obtain ⟨rfl, -, rfl, -, rfl, -, hc⟩ := hc
      refine runs_expect_bind.mpr ⟨hstart, runs_expect_bind.mpr ⟨hto, runs_expect_bind.mpr
        ⟨htarget, ?_⟩⟩⟩
      cases hguard with
      | none =>
          obtain rfl := hc
          exact (runs_accept_bind_neg hif).mpr (runs_bind.mpr
            ⟨none, _, runs_pure.mpr ⟨rfl, rfl⟩, runs_pure.mpr ⟨rfl, rfl⟩⟩)
      | some hifWord htest =>
          obtain ⟨rfl, -, hc⟩ := hc
          exact (runs_accept_bind_pos hifWord).mpr (runs_bind.mpr
            ⟨some _, c', runs_map.mpr ⟨_, htest.runs hn hc hfollow, rfl⟩,
              runs_pure.mpr ⟨rfl, rfl⟩⟩)

theorem DerivesAction.current_kind {c c' : Cursor σ} {ts : List Token} {a : Action}
    (h : DerivesAction ts a) (hc : c.Consumes ts c') : c.current.kind = a.phase.kind := by
  cases h with
  | action hstart _ _ => rw [hc.1, hstart]

theorem DerivesTransition.current_kind {c c' : Cursor σ} {ts : List Token} {t : Transition}
    (h : DerivesTransition ts t) (hc : c.Consumes ts c') : c.current.kind = .kwTransition := by
  cases h with
  | transition hstart _ _ _ => rw [hc.1, hstart]

theorem phaseKind_mem (p : Phase) : p.kind ∈ memberStarts := by
  cases p <;> decide

/-- Members are read up to an `end`: at each of them stands its keyword. -/
theorem DerivesMembers.current_mem {c c' : Cursor σ} {ts : List Token} {as : List Action}
    {trs : List Transition} (h : DerivesMembers ts as trs) (hc : c.Consumes ts c')
    (hend : c'.current.kind = .kwEnd) : c.current.kind ∈ .kwEnd :: memberStarts := by
  cases h with
  | nil =>
      obtain rfl := hc
      rw [hend]
      decide
  | action ha _ =>
      obtain ⟨d, hcd, -⟩ := Cursor.consumes_append.mp hc
      rw [ha.current_kind hcd]
      exact List.mem_cons_of_mem _ (phaseKind_mem _)
  | transition ht _ =>
      obtain ⟨d, hcd, -⟩ := Cursor.consumes_append.mp hc
      rw [ht.current_kind hcd]
      decide

theorem member_follow : ∀ k ∈ TokenKind.kwEnd :: memberStarts,
    k ≠ .kwIf ∧ k ∉ ExpressionSymbol.continuers .condition := by
  decide

theorem memberOf_ne_nil {n : Nat} {ts : List Token} {m : Member} (h : memberOf n ts m) :
    ts ≠ [] := by
  rcases h with ⟨a, ha, rfl⟩ | ⟨t, ht, rfl⟩
  · cases ha.1
    simp
  · cases ht.1
    simp

theorem advancing_member (n : Nat) : (member n : Parser σ Member).Advancing := by
  intro c m d hr
  by_cases hs : c.current.kind ∈ memberStarts
  · obtain ⟨ts, hts, hm⟩ := (recognises_member n).runs hs hr
    have hle := hts.size_le
    have hpos := List.length_pos_iff.mpr (memberOf_ne_nil hm)
    omega
  · exact absurd ((runs_congr (member_apply_other hs)).mp hr) not_runs_unexpected

theorem runs_member_action {n : Nat} {c d : Cursor σ} {a : Action}
    (hk : c.current.kind = a.phase.kind) (h : (action n).Runs c a d) :
    (member n).Runs c (.action a) d := by
  rw [member, memberWith, runs_peek_bind, hk]
  cases a.phase <;> exact runs_map.mpr ⟨a, h, rfl⟩

theorem runs_member_transition {n : Nat} {c d : Cursor σ} {t : Transition}
    (hk : c.current.kind = .kwTransition) (h : (transition n).Runs c t d) :
    (member n).Runs c (.transition t) d := by
  rw [member, memberWith, runs_peek_bind, hk]
  exact runs_map.mpr ⟨t, h, rfl⟩

theorem DerivesMembers.runs {n : Nat} {ts : List Token} {as : List Action}
    {trs : List Transition} (h : DerivesMembers ts as trs) :
    ∀ {c c' : Cursor σ}, largest Action.nesting as ≤ n → largest Transition.nesting trs ≤ n →
      c.Consumes ts c' → c'.current.kind = .kwEnd →
      ∃ ms, (repeatUntil (· = .kwEnd) (member n)).Runs c ms c' ∧
        ms.filterMap Member.action? = as ∧ ms.filterMap Member.transition? = trs := by
  induction h with
  | nil =>
      intro c c' _ _ hc hend
      obtain rfl := hc
      exact ⟨[], runs_repeatUntil_nil (advancing_member n) (by simp [hend]), rfl, rfl⟩
  | @action ts us a as trs ha _ ih =>
      intro c c' has htrs hc hend
      obtain ⟨has₁, has₂⟩ := Nat.max_le.mp has
      obtain ⟨d, hcd, hdc'⟩ := Cursor.consumes_append.mp hc
      obtain ⟨ms, hms, has, htrs⟩ := ih has₂ htrs hdc' hend
      have hk := ha.current_kind hcd
      refine ⟨.action a :: ms, runs_repeatUntil_cons (advancing_member n) ?_
        (runs_member_action hk (ha.runs has₁ hcd)) hms, by rw [← has]; rfl, htrs⟩
      rw [hk]
      cases a.phase <;> rfl
  | @transition ts us t as trs ht hrest ih =>
      intro c c' has htrs hc hend
      obtain ⟨htrs₁, htrs₂⟩ := Nat.max_le.mp htrs
      obtain ⟨d, hcd, hdc'⟩ := Cursor.consumes_append.mp hc
      obtain ⟨ms, hms, has, htrs⟩ := ih has htrs₂ hdc' hend
      have hk := ht.current_kind hcd
      obtain ⟨hif, hfollow⟩ := member_follow _ (hrest.current_mem hdc' hend)
      refine ⟨.transition t :: ms, runs_repeatUntil_cons (advancing_member n) (by simp [hk])
        (runs_member_transition hk (ht.runs htrs₁ hcd hif hfollow)) hms, has, by rw [← htrs]; rfl⟩

/-! ## Nodes and workflows -/

theorem DerivesNode.runs {n : Nat} {c c' : Cursor σ} {ts : List Token} {nd : Node}
    (h : DerivesNode ts nd) (hn : nd.nesting ≤ n) (hc : c.Consumes ts c') :
    (Grammar.node n).Runs c nd c' := by
  cases h with
  | node hstart hname hmembers hfin =>
      simp only [List.cons_append, Cursor.consumes_cons, Cursor.consumes_append,
        Cursor.consumes_nil] at hc
      obtain ⟨rfl, -, rfl, -, d, hcd, rfl, -, rfl⟩ := hc
      obtain ⟨hn₁, hn₂⟩ := Nat.max_le.mp hn
      obtain ⟨ms, hms, rfl, rfl⟩ := hmembers.runs hn₁ hn₂ hcd hfin
      exact runs_bind.mpr ⟨_, _, runs_announced (ofKeyword?_nodeKind.mpr hstart),
        runs_expect_bind.mpr ⟨hname, runs_bind.mpr ⟨ms, d, hms, runs_expect_bind.mpr ⟨hfin,
          runs_bind.mpr ⟨(), _, runs_notify.mpr rfl, runs_pure.mpr ⟨rfl, rfl⟩⟩⟩⟩⟩⟩

theorem DerivesNode.current_kind {c c' : Cursor σ} {ts : List Token} {nd : Node}
    (h : DerivesNode ts nd) (hc : c.Consumes ts c') : c.current.kind = nd.kind.kind := by
  cases h with
  | node hstart _ _ _ => rw [hc.1, hstart]

theorem advancing_nodeOrEnd (n : Nat) : (nodeOrEnd n : Parser σ Node).Advancing := by
  intro c nd d hr
  by_cases hs : c.current.kind ∈ nodeStarts
  · obtain ⟨ts, hts, hnd⟩ := (recognises_nodeOrEnd n).runs hs hr
    have hle := hts.size_le
    have hpos : 0 < ts.length := by
      cases hnd.1
      simp
    omega
  · exact absurd ((runs_congr (nodeOrEnd_apply_other hs)).mp hr) not_runs_unexpected

theorem DerivesNodes.runs {n : Nat} {ts : List Token} {ns : List Node}
    (h : DerivesNodes ts ns) : ∀ {c c' : Cursor σ}, largest Node.nesting ns ≤ n →
      c.Consumes ts c' → c'.current.kind = .kwEnd →
      (repeatUntil (· = .kwEnd) (nodeOrEnd n)).Runs c ns c' := by
  induction h with
  | nil =>
      intro c c' _ hc hend
      obtain rfl := hc
      exact runs_repeatUntil_nil (advancing_nodeOrEnd n) (by simp [hend])
  | @cons ts us nd ns hnd _ ih =>
      intro c c' hn hc hend
      obtain ⟨hn₁, hn₂⟩ := Nat.max_le.mp hn
      obtain ⟨d, hcd, hdc'⟩ := Cursor.consumes_append.mp hc
      have hk := hnd.current_kind hcd
      refine runs_repeatUntil_cons (advancing_nodeOrEnd n) ?_ ?_ (ih hn₂ hdc' hend)
      · rw [hk]
        cases nd.kind <;> rfl
      · rw [nodeOrEnd, nodeOrEndWith, runs_peek_bind, ofKeyword?_nodeKind.mpr hk]
        exact hnd.runs hn₁ hcd

theorem DerivesWorkflow.runs {n : Nat} {c c' : Cursor σ} {ts : List Token} {w : Workflow}
    (h : DerivesWorkflow ts w) (hn : w.nesting ≤ n) (hc : c.Consumes ts c') :
    (Grammar.workflow n).Runs c w c' := by
  cases h with
  | workflow hstart hname hnodes hfin =>
      simp only [List.cons_append, Cursor.consumes_cons, Cursor.consumes_append,
        Cursor.consumes_nil] at hc
      obtain ⟨rfl, -, rfl, -, d, hcd, rfl, -, rfl⟩ := hc
      exact runs_expect_bind.mpr ⟨hstart, runs_expect_bind.mpr ⟨hname, runs_bind.mpr
        ⟨_, d, hnodes.runs hn hcd hfin, runs_expect_bind.mpr ⟨hfin,
          runs_bind.mpr ⟨(), _, runs_notify.mpr rfl, runs_pure.mpr ⟨rfl, rfl⟩⟩⟩⟩⟩⟩

end WorkflowScript.Grammar
