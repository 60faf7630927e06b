import WorkflowScript.Grammar.Workflow
import WorkflowScript.Proofs.Statement.Recognition
import WorkflowScript.Proofs.Workflow.Derivation

/-!
# Parsers of workflows recognise the grammar

No recursion is left at these layers. In the bodies of nodes and workflows
the error may offer `end`, which is no beginning of a member: there the loop
and its closing token are settled together.
-/

namespace WorkflowScript.Grammar

open WorkflowScript.Language WorkflowScript.Parser

variable {σ : Type} [TokenSource σ]

/-! ## Keywords that announce -/

/-- A token of one of the kinds that `kind` lists, and what it stands for. -/
def keyword {κ : Type} (kind : κ → TokenKind) : Language (Lead κ) := fun _ ts lead =>
  ts = [lead.token] ∧ lead.token.kind = kind lead.value

instance {κ : Type} (kind : κ → TokenKind) : Growing (keyword kind) := ⟨fun _ h => h⟩

instance {κ : Type} [Inhabited κ] (kind : κ → TokenKind) : Productive (keyword kind) :=
  ⟨fun _ => ⟨[.plain (kind default)], ⟨default, _⟩, rfl, rfl⟩⟩

theorem recognises_announced {κ : Type} (kind : κ → TokenKind) {read? : TokenKind → Option κ}
    {expected : List TokenKind} {start : TokenKind → Prop} {n : Nat}
    (hread : ∀ {k v}, read? k = some v → k = kind v) (hend : read? .endOfInput = none)
    (hexpected : ∀ k ∈ expected, ∃ v, k = kind v) :
    Recognises start (announced read? expected : Parser σ (Lead κ)) (keyword kind) n := by
  refine .peek fun k _ => ?_
  cases hk : read? k with
  | none =>
      refine .unexpected fun _ t ht => ?_
      obtain ⟨v, hv⟩ := hexpected _ ht
      exact ⟨0, [], ⟨v, t⟩, rfl, hv⟩
  | some v =>
      have hne : k ≠ .endOfInput := fun he => by rw [he, hend] at hk; cases hk
      refine .mono (.bind (.advance hne) fun t => .pure _) ?_
      rintro n _ _ ⟨_, t, _, rfl, ⟨rfl, ht⟩, rfl, rfl⟩
      exact ⟨rfl, ht.trans (hread hk)⟩

theorem ofKeyword?_phase {k : TokenKind} {p : Phase} :
    Phase.ofKeyword? k = some p ↔ k = p.kind := by
  cases k <;> cases p <;> simp [Phase.ofKeyword?, Phase.kind]

theorem ofKeyword?_nodeKind {k : TokenKind} {nk : NodeKind} :
    NodeKind.ofKeyword? k = some nk ↔ k = nk.kind := by
  cases k <;> cases nk <;> simp [NodeKind.ofKeyword?, NodeKind.kind]

instance : Inhabited Phase := ⟨.enter⟩

instance : Inhabited NodeKind := ⟨.node⟩

/-! ## Members of nodes -/

theorem recognises_action {start : TokenKind → Prop} (n : Nat) :
    Recognises start (action n : Parser σ Action) (bounded DerivesAction Action.nesting) n := by
  refine .mono (.bind (recognises_announced Phase.kind ofKeyword?_phase.mp rfl ?_)
    fun lead => .bind (recognises_block n) fun body => .pure _) ?_
  · intro k hk
    simp only [List.mem_cons, List.not_mem_nil, or_false] at hk
    rcases hk with rfl | rfl
    · exact ⟨.enter, rfl⟩
    · exact ⟨.leave, rfl⟩
  · rintro n _ _ ⟨_, lead, _, rfl, ⟨rfl, hlead⟩, _, body, _, rfl, ⟨us, fin, rfl, hbody, hfin⟩,
      rfl, rfl⟩
    exact ⟨by simpa using DerivesAction.action hlead hbody.1 hfin, hbody.2⟩

theorem recognises_transition {start : TokenKind → Prop} (n : Nat) :
    Recognises start (transition n : Parser σ Transition)
      (bounded DerivesTransition Transition.nesting) n := by
  refine .mono (.bind (.expect (by decide)) fun start => .bind (.expect (by decide)) fun toWord =>
    .bind (.expect (by decide)) fun target => .acceptThen (by decide)
      (.bind (.map (recognises_condition n)) fun guard => .pure _)
      (.bind (.pure none) fun guard => .pure _)) ?_
  rintro n _ _ ⟨_, start, _, rfl, ⟨rfl, hstart⟩, _, toWord, _, rfl, ⟨rfl, hto⟩, _, target, _, rfl,
    ⟨rfl, htarget⟩, hguard⟩
  rcases hguard with ⟨ifWord, _, rfl, hif, _, _, _, rfl, ⟨ts, c, _, rfl, hc, rfl, rfl⟩, rfl, rfl⟩ |
    ⟨_, _, _, rfl, ⟨rfl, rfl⟩, rfl, rfl⟩
  · exact ⟨by simpa using DerivesTransition.transition hstart hto htarget (.some hif hc.1), hc.2⟩
  · exact ⟨.transition hstart hto htarget .none, Nat.zero_le n⟩

/-- The sentences of one member of a node. -/
def memberOf : Language Member := fun n ts m =>
  (∃ a, bounded DerivesAction Action.nesting n ts a ∧ m = .action a) ∨
    ∃ t, bounded DerivesTransition Transition.nesting n ts t ∧ m = .transition t

instance : Growing memberOf where
  grow hle := by
    rintro (⟨a, ha, rfl⟩ | ⟨t, ht, rfl⟩)
    · exact .inl ⟨a, Growing.grow hle ha, rfl⟩
    · exact .inr ⟨t, Growing.grow hle ht, rfl⟩

theorem memberOf_transition (n : Nat) {t : Token} (h : t.kind = .kwTransition) :
    memberOf n [t, .plain .kwTo, .plain .identifier] (.transition ⟨"", none, t.position⟩) :=
  .inr ⟨_, ⟨.transition h (Token.plain_kind _) (Token.plain_kind _) .none, Nat.zero_le n⟩, rfl⟩

theorem memberOf_action (n : Nat) {t : Token} (phase : Phase) (h : t.kind = phase.kind) :
    memberOf n [t, .plain .kwEnd] (.action ⟨phase, [], t.position⟩) :=
  .inl ⟨_, ⟨.action h .nil (Token.plain_kind _), Nat.zero_le n⟩, rfl⟩

instance : Productive memberOf :=
  ⟨fun n => ⟨_, _, memberOf_transition n (Token.plain_kind .kwTransition)⟩⟩

theorem derivesMembers_of_repeated {n ts ms} (h : Repeated memberOf n ts ms) :
    DerivesMembers ts (ms.filterMap Member.action?) (ms.filterMap Member.transition?) ∧
      largest Action.nesting (ms.filterMap Member.action?) ≤ n ∧
      largest Transition.nesting (ms.filterMap Member.transition?) ≤ n := by
  induction h with
  | nil => exact ⟨.nil, Nat.zero_le n, Nat.zero_le n⟩
  | cons hm _ ih =>
      obtain ⟨hms, has, hts⟩ := ih
      rcases hm with ⟨a, ha, rfl⟩ | ⟨t, ht, rfl⟩
      · exact ⟨.action ha.1 hms, Nat.max_le.mpr ⟨ha.2, has⟩, hts⟩
      · exact ⟨.transition ht.1 hms, has, Nat.max_le.mpr ⟨ht.2, hts⟩⟩

/-- The tokens a member of a node starts with. -/
def memberStarts : List TokenKind := [.kwEnter, .kwLeave, .kwTransition]

theorem promises_member {t : Token} (h : t.kind ∈ memberStarts) : memberOf.Promises [t] := by
  simp only [memberStarts, List.mem_cons, List.not_mem_nil, or_false] at h
  rcases h with h | h | h
  · exact ⟨0, _, _, memberOf_action 0 .enter h⟩
  · exact ⟨0, _, _, memberOf_action 0 .leave h⟩
  · exact ⟨0, _, _, memberOf_transition 0 h⟩

theorem recognises_member (n : Nat) :
    Recognises (· ∈ memberStarts) (member n : Parser σ Member) memberOf n := by
  refine .peek fun k hk => ?_
  simp only [memberStarts, List.mem_cons, List.not_mem_nil, or_false] at hk
  rcases hk with rfl | rfl | rfl
  · refine .mono (.map (recognises_action n)) ?_
    rintro n _ _ ⟨us, a, _, rfl, ha, rfl, rfl⟩
    exact .inl ⟨a, by simpa using ha, rfl⟩
  · refine .mono (.map (recognises_action n)) ?_
    rintro n _ _ ⟨us, a, _, rfl, ha, rfl, rfl⟩
    exact .inl ⟨a, by simpa using ha, rfl⟩
  · refine .mono (.map (recognises_transition n)) ?_
    rintro n _ _ ⟨us, t, _, rfl, ht, rfl, rfl⟩
    exact .inr ⟨t, by simpa using ht, rfl⟩

theorem member_apply_other {n : Nat} {c : Cursor σ} (h : ¬c.current.kind ∈ memberStarts) :
    member n c = unexpected (.oneOf [.kwEnter, .kwLeave, .kwTransition, .kwEnd]) c := by
  rw [member, memberWith, peek_bind_apply]
  generalize c.current.kind = k at h
  cases k <;> first | rfl | exact absurd (by decide) h

/-! ## Nodes -/

theorem derivesNode_empty {t : Token} (kind : NodeKind) (h : t.kind = kind.kind) :
    DerivesNode [t, .plain .identifier, .plain .kwEnd] ⟨kind, "", [], [], t.position⟩ :=
  .node h (Token.plain_kind .identifier) .nil (Token.plain_kind .kwEnd)

instance : Productive (bounded DerivesNode Node.nesting) :=
  ⟨fun n => ⟨_, _, derivesNode_empty .node (Token.plain_kind .kwNode), Nat.zero_le n⟩⟩

theorem recognises_node {start : TokenKind → Prop} (n : Nat) :
    Recognises start (node n : Parser σ Node) (bounded DerivesNode Node.nesting) n := by
  refine .mono (.bind (recognises_announced NodeKind.kind ofKeyword?_nodeKind.mp rfl ?_)
    fun lead => .bind (.expect (by decide)) fun name =>
      .repeatUntilClosed (by decide) (recognises_member n) member_apply_other ?_
        fun ms => .bind (.notify _) fun _ => .pure _) ?_
  · intro k hk
    simp only [List.mem_cons, List.not_mem_nil, or_false] at hk
    rcases hk with rfl | rfl | rfl
    · exact ⟨.node, rfl⟩
    · exact ⟨.state, rfl⟩
    · exact ⟨.join, rfl⟩
  · intro u t ht
    rcases List.mem_append.mp (show t.kind ∈ memberStarts ++ [.kwEnd] from ht) with ht | ht
    · exact .inl (promises_member ht)
    · exact .inr (List.mem_singleton.mp ht)
  · rintro n _ _ ⟨_, lead, _, rfl, ⟨rfl, hlead⟩, _, name, _, rfl, ⟨rfl, hname⟩, ts, ms, _, rfl, hms,
      _, fin, _, rfl, ⟨rfl, hfin⟩, _, _, _, rfl, ⟨rfl, rfl⟩, rfl, rfl⟩
    obtain ⟨hms, has, hts⟩ := derivesMembers_of_repeated hms
    exact ⟨by simpa using DerivesNode.node hlead hname hms hfin, Nat.max_le.mpr ⟨has, hts⟩⟩

/-- The tokens a node starts with. -/
def nodeStarts : List TokenKind := [.kwNode, .kwState, .kwJoin]

theorem promises_node {t : Token} (h : t.kind ∈ nodeStarts) :
    (bounded DerivesNode Node.nesting).Promises [t] := by
  simp only [nodeStarts, List.mem_cons, List.not_mem_nil, or_false] at h
  rcases h with h | h | h
  · exact ⟨0, _, _, derivesNode_empty .node h, Nat.zero_le 0⟩
  · exact ⟨0, _, _, derivesNode_empty .state h, Nat.zero_le 0⟩
  · exact ⟨0, _, _, derivesNode_empty .join h, Nat.zero_le 0⟩

theorem recognises_nodeOrEnd (n : Nat) :
    Recognises (· ∈ nodeStarts) (nodeOrEnd n : Parser σ Node)
      (bounded DerivesNode Node.nesting) n := by
  refine .peek fun k hk => ?_
  simp only [nodeStarts, List.mem_cons, List.not_mem_nil, or_false] at hk
  rcases hk with rfl | rfl | rfl <;> exact recognises_node n

theorem nodeOrEnd_apply_other {n : Nat} {c : Cursor σ} (h : ¬c.current.kind ∈ nodeStarts) :
    nodeOrEnd n c = unexpected (.oneOf [.kwNode, .kwState, .kwJoin, .kwEnd]) c := by
  rw [nodeOrEnd, nodeOrEndWith, peek_bind_apply]
  generalize c.current.kind = k at h
  cases k <;> first | rfl | exact absurd (by decide) h

/-! ## Workflows -/

theorem derivesNodes_of_repeated {n ts ns}
    (h : Repeated (bounded DerivesNode Node.nesting) n ts ns) :
    DerivesNodes ts ns ∧ largest Node.nesting ns ≤ n := by
  induction h with
  | nil => exact ⟨.nil, Nat.zero_le n⟩
  | cons hn _ ih => exact ⟨.cons hn.1 ih.1, Nat.max_le.mpr ⟨hn.2, ih.2⟩⟩

theorem recognises_workflow {start : TokenKind → Prop} (n : Nat) :
    Recognises start (workflow n : Parser σ Workflow)
      (bounded DerivesWorkflow Workflow.nesting) n := by
  refine .mono (.bind (.expect (by decide)) fun start => .bind (.expect (by decide)) fun name =>
    .repeatUntilClosed (by decide) (recognises_nodeOrEnd n) nodeOrEnd_apply_other ?_
      fun ns => .bind (.notify _) fun _ => .pure _) ?_
  · intro u t ht
    rcases List.mem_append.mp (show t.kind ∈ nodeStarts ++ [.kwEnd] from ht) with ht | ht
    · exact .inl (promises_node ht)
    · exact .inr (List.mem_singleton.mp ht)
  · rintro n _ _ ⟨_, start, _, rfl, ⟨rfl, hstart⟩, _, name, _, rfl, ⟨rfl, hname⟩, ts, ns, _, rfl,
      hns, _, fin, _, rfl, ⟨rfl, hfin⟩, _, _, _, rfl, ⟨rfl, rfl⟩, rfl, rfl⟩
    obtain ⟨hns, hnesting⟩ := derivesNodes_of_repeated hns
    exact ⟨by simpa using DerivesWorkflow.workflow hstart hname hns hfin, hnesting⟩

end WorkflowScript.Grammar
