import WorkflowScript.Proofs.Nesting.Count
import WorkflowScript.Proofs.Workflow.Acceptance

/-!
# The highest count is the depth of the tree

In a sentence of the grammar the counts at the tokens and the levels that the
tree needs are the same thing seen from two sides: the tokens stay within `n`
constructs if and only if the tree needs `n` levels at most
(`Entry.Derives.counts_le_iff`). The proof is an induction over derivations.
A sentence leaves the surroundings as it finds them, and what it needs comes on
top of what is open around it.
-/

namespace WorkflowScript

open WorkflowScript.Grammar

namespace Surroundings

/-! ## The highest count -/

/-- The highest count at some tokens, and at least what is open behind them. -/
def highest (s : Surroundings) : List Token → Nat
  | [] => s.total
  | t :: ts => max (s.count t.kind) ((s.step t.kind).highest ts)

theorem total_le_highest (s : Surroundings) (ts : List Token) : s.total ≤ s.highest ts := by
  cases ts with
  | nil => exact Nat.le_refl _
  | cons t ts => exact Nat.le_trans (Nat.le_max_left ..) (Nat.le_max_left ..)

theorem highest_append (s : Surroundings) (ts us : List Token) :
    s.highest (ts ++ us) = max (s.highest ts) ((s.after ts).highest us) := by
  induction ts generalizing s with
  | nil => exact (Nat.max_eq_right (total_le_highest ..)).symm
  | cons t ts ih => rw [List.cons_append, highest, ih, highest, Nat.max_assoc]; rfl

theorem highest_le_iff {s : Surroundings} {ts : List Token} {n : Nat} (h : s.total ≤ n) :
    s.highest ts ≤ n ↔ ∀ m ∈ s.counts ts, m ≤ n := by
  induction ts generalizing s with
  | nil => simpa [highest] using h
  | cons t ts ih =>
      rw [highest, Nat.max_le, counts_cons, List.forall_mem_cons]
      refine and_congr_right fun hcount => ih ?_
      exact Nat.le_trans (Nat.le_max_right ..) hcount

/-! ## Stretches of tokens -/

/-- The tokens lead from `s` to `s'`, and the highest count on the way is `n`. -/
structure Spans (s : Surroundings) (ts : List Token) (s' : Surroundings) (n : Nat) : Prop where
  after_eq : s.after ts = s'
  highest_eq : s.highest ts = n

namespace Spans

variable {s s' s'' : Surroundings} {ts us : List Token} {m n : Nat} {k : TokenKind} {t : Token}

theorem nil (h : s.total = n) : Spans s [] s n := ⟨rfl, h⟩

theorem append (h : Spans s ts s' m) (h' : Spans s' us s'' n) :
    Spans s (ts ++ us) s'' (max m n) := by
  obtain ⟨rfl, rfl⟩ := h
  obtain ⟨rfl, rfl⟩ := h'
  exact ⟨after_append .., highest_append ..⟩

theorem cons (ht : t.kind = k) (hcount : s.count k = m) (hstep : s.step k = s')
    (h : Spans s' ts s'' n) : Spans s (t :: ts) s'' (max m n) := by
  subst ht
  subst hcount
  subst hstep
  exact ⟨h.after_eq, congrArg _ h.highest_eq⟩

/-- A token that changes nothing does not count for more than what is around it. -/
theorem inert (ht : t.kind = k) (hk : Surroundings.inert k = true) (h : Spans s ts s' n) :
    Spans s (t :: ts) s' n := by
  have hmax := Nat.max_eq_right (h.highest_eq ▸ total_le_highest s ts)
  exact hmax ▸ h.cons ht (count_of_inert hk s) (step_of_inert hk s)

theorem of_eq (h : Spans s ts s' m) (hmn : m = n) : Spans s ts s' n := hmn ▸ h

/-- What stands in brackets is one level further down. -/
theorem inBrackets {lp rp : Token} (hs : s.Inside m) (hlp : lp.kind = .leftParen)
    (hrp : rp.kind = .rightParen) (h : Spans s.inBracket ts s.inBracket (m + 1 + n)) :
    Spans s (lp :: ts ++ [rp]) s (m + (n + 1)) := by
  have hclose := (nil hs.total_eq).cons hrp (count_rightParen s.inBracket) rfl
  have hopen := (h.append hclose).cons hlp
    (hs.count_of_opens (k := .leftParen) hs.heading_eq) (step_leftParen hs.heading_eq)
  rw [hs.inBracket.total_eq] at hopen
  exact hopen.of_eq (by omega)

/-- The `end` of a statement belongs to its body. -/
theorem toEnd {fin : Token} (hs : s'.Between m) (hfin : fin.kind = .kwEnd)
    (h : Spans s ts s'.inBody (m + 1 + n)) : Spans s (ts ++ [fin]) s' (m + 1 + n) := by
  have hclose := (nil hs.total_eq).cons hfin (count_kwEnd s'.inBody) rfl
  rw [hs.inBody.total_eq] at hclose
  exact (h.append hclose).of_eq (by omega)

end Spans

/-! ## Outside of all constructs -/

/-- The tokens lead from the outside to the outside, and the highest count on
the way is `n`. -/
def StaysOutside (s : Surroundings) (ts : List Token) (n : Nat) : Prop :=
  ∃ s' : Surroundings, s'.Outside ∧ Spans s ts s' n

namespace StaysOutside

variable {s : Surroundings} {ts us : List Token} {m n : Nat} {k : TokenKind} {t : Token}

theorem nil (hs : s.Outside) : s.StaysOutside [] 0 := ⟨s, hs, .nil hs.inside.total_eq⟩

theorem append (h : s.StaysOutside ts m)
    (h' : ∀ {s : Surroundings}, s.Outside → s.StaysOutside us n) :
    s.StaysOutside (ts ++ us) (max m n) := by
  obtain ⟨s', hs', hts⟩ := h
  obtain ⟨s'', hs'', hus⟩ := h' hs'
  exact ⟨s'', hs'', hts.append hus⟩

theorem cons (h : (s.step k).StaysOutside ts n) (ht : t.kind = k) (hcount : s.count k = 0) :
    s.StaysOutside (t :: ts) n := by
  obtain ⟨s', hs', hts⟩ := h
  exact ⟨s', hs', (hts.cons ht hcount rfl).of_eq (Nat.zero_max n)⟩

theorem inert (h : s.StaysOutside ts n) (ht : t.kind = k) (hk : Surroundings.inert k = true) :
    s.StaysOutside (t :: ts) n := by
  obtain ⟨s', hs', hts⟩ := h
  exact ⟨s', hs', hts.inert ht hk⟩

/-- The `end` of anything but a statement belongs to nothing. -/
theorem toEnd {fin : Token} (h : s.StaysOutside ts n) (hfin : fin.kind = .kwEnd) :
    s.StaysOutside (ts ++ [fin]) n := by
  have hclose := h.append fun hs => cons (nil hs.step_kwEnd) hfin hs.count_kwEnd
  rwa [Nat.max_zero] at hclose

end StaysOutside

end Surroundings

open Surroundings

/-! ## Expressions -/

namespace Grammar

namespace ExpressionSymbol

/-- What a sentence needs comes on top of what is open, and it closes what it
opens. -/
theorem Derives.spans {symbol : ExpressionSymbol} {ts : List Token} {t : symbol.Tree}
    (h : symbol.Derives ts t) :
    ∀ {s : Surroundings} {k : Nat}, s.Inside k → Spans s ts s (k + symbol.nesting t) := by
  induction h with
  | condition _ _ ih₁ ih₂ | conjunction _ _ ih₁ ih₂ | expression _ _ ih₁ ih₂ | term _ _ ih₁ ih₂ =>
      intro s k hs
      exact ((ih₁ hs).append (ih₂ hs)).of_eq (Nat.add_max_add_left ..)
  | noAlternative | noConjunct | noAddend | noMultiplier | noMoreArguments =>
      intro s k hs
      exact .nil hs.total_eq
  | alternative hword _ _ ih₁ ih₂ | conjunct hword _ _ ih₁ ih₂
  | moreArguments hword _ _ ih₁ ih₂ =>
      intro s k hs
      exact (((ih₁ hs).append (ih₂ hs)).inert hword rfl).of_eq (Nat.add_max_add_left ..)
  | @addend _ _ _ op _ _ hsign _ _ ih₁ ih₂ | @multiplier _ _ _ op _ _ hsign _ _ ih₁ ih₂ =>
      intro s k hs
      exact (((ih₁ hs).append (ih₂ hs)).inert hsign (by cases op <;> rfl)).of_eq
        (Nat.add_max_add_left ..)
  | @comparison _ _ _ _ op _ _ hsign _ ih₁ ih₂ =>
      intro s k hs
      exact ((ih₁ hs).append ((ih₂ hs).inert hsign (by cases op <;> rfl))).of_eq
        (Nat.add_max_add_left ..)
  | clause _ ih | relation _ ih | callFactor _ ih => exact ih
  | negation hword _ ih | call hword _ ih =>
      intro s k hs
      exact (ih hs).inert hword rfl
  | variableFactor hword | integer hword | string hword | true hword | false hword =>
      intro s k hs
      exact (Spans.nil hs.total_eq).inert hword rfl
  | group hlp _ hrp ih =>
      intro s k hs
      exact (ih hs.inBracket).inBrackets hs hlp hrp
  | noArguments hlp hrp =>
      intro s k hs
      have hinner : Spans s.inBracket [] s.inBracket (k + 1 + 0) := .nil hs.inBracket.total_eq
      exact hinner.inBrackets hs hlp hrp
  | arguments hlp _ _ hrp ih₁ ih₂ =>
      intro s k hs
      have hinner := (ih₁ hs.inBracket).append (ih₂ hs.inBracket)
      exact (hinner.of_eq (Nat.add_max_add_left ..)).inBrackets hs hlp hrp

end ExpressionSymbol

/-! ## Statements -/

variable {s : Surroundings} {k : Nat} {ts : List Token}

theorem DerivesAssignment.spans {a : Assignment} (h : DerivesAssignment ts a) (hs : s.Inside k) :
    Spans s ts s (k + a.nesting) := by
  cases h with
  | assignment hname heq he => exact ((he.spans hs).inert heq rfl).inert hname rfl

theorem DerivesDeclaration.spans {d : Declaration} (h : DerivesDeclaration ts d)
    (hs : s.Inside k) : Spans s ts s (k + d.nesting) := by
  cases h with
  | declaration hvar hname heq he =>
      exact (((he.spans hs).inert heq rfl).inert hname rfl).inert hvar rfl

theorem DerivesBareDeclaration.spans {d : Declaration} (h : DerivesBareDeclaration ts d)
    (hs : s.Inside k) : Spans s ts s (k + d.nesting) := by
  cases h with
  | keyword hd => exact hd.spans hs
  | bare hname heq he => exact ((he.spans hs).inert heq rfl).inert hname rfl

theorem DerivesMoreParameters.spans {names : List String} (h : DerivesMoreParameters ts names)
    (htotal : s.total = k) : Spans s ts s k := by
  induction h with
  | nil => exact .nil htotal
  | cons hcomma hname _ ih => exact (ih.inert hname rfl).inert hcomma rfl

/-- The brackets of parameters open nothing. -/
theorem DerivesParameters.spans {names : List String} (h : DerivesParameters ts names)
    (hs : s.Between k) : Spans s.inHead ts s.inBody (k + 1) := by
  have hbody := hs.inBody
  have htotal := hbody.total_eq
  have hclose {rp : Token} (hrp : rp.kind = .rightParen) : Spans s.inBody [rp] s.inBody (k + 1) :=
    ((Spans.nil htotal).cons hrp ((count_rightParen _).trans htotal) hbody.step_rightParen).of_eq
      (Nat.max_self _)
  have hopen {lp : Token} {us : List Token} (hlp : lp.kind = .leftParen)
      (h : Spans s.inBody us s.inBody (k + 1)) : Spans s.inHead (lp :: us) s.inBody (k + 1) :=
    (h.cons hlp hs.count_inHead hs.step_inHead).of_eq (Nat.max_self _)
  cases h with
  | none hlp hrp => exact hopen hlp (hclose hrp)
  | some hlp hname hnames hrp =>
      have hinner := (hnames.spans htotal).append (hclose hrp)
      rw [Nat.max_self] at hinner
      exact hopen hlp (hinner.inert hname rfl)

theorem DerivesReturns.spans {returns : Option Expression} (h : DerivesReturns ts returns)
    (hs : s.Inside k) : Spans s ts s (k + (returns.map Expression.nesting).getD 0) := by
  cases h with
  | none => exact .nil hs.total_eq
  | some hword he => exact (he.spans hs).inert hword rfl

namespace StatementSymbol

/-- The levels that a statement with a body takes. -/
def opens : StatementSymbol → Nat
  | statement | statements => 0
  | definition | conditional | loop => 1

/-- Like expressions; a statement with a body takes its own level as well. -/
theorem Derives.spans {symbol : StatementSymbol} {t : symbol.Tree} (h : symbol.Derives ts t) :
    ∀ {s : Surroundings} {k : Nat}, s.Between k →
      Spans s ts s (k + symbol.opens + symbol.nesting t) := by
  induction h with
  | ofDefinition _ ih | ofConditional _ ih | ofLoop _ ih =>
      intro s k hs
      exact (ih hs).of_eq (Nat.add_right_comm ..)
  | ofDeclaration hd | ofCall hd | ofAssignment hd =>
      intro s k hs
      exact hd.spans hs.toInside
  | nil =>
      intro s k hs
      exact .nil hs.total_eq
  | cons _ _ ih₁ ih₂ =>
      intro s k hs
      exact ((ih₁ hs).append (ih₂ hs)).of_eq (Nat.add_max_add_left ..)
  | definition hstart hname hparams _ hreturns hfin ih =>
      intro s k hs
      have hbody := hs.inBody
      have hhead := ((hparams.spans hs).inert hname rfl).cons hstart
        (hs.count_of_opens (k := .kwDef) trivial) rfl
      have hinner := (hhead.append (ih hbody)).append (hreturns.spans hbody.toInside)
      refine .toEnd hs hfin (hinner.of_eq ?_)
      simp only [opens, nesting, Definition.nesting]
      omega
  | conditional hstart htest hthen _ hfin ih =>
      intro s k hs
      have hbody := hs.inBody
      have hhead := (htest.spans hbody.toInside).append ((ih hbody).inert hthen rfl)
      have hinner := hhead.cons hstart (hs.count_of_opens (k := .kwIf) hs.guarding_eq)
        (step_kwIf hs.guarding_eq)
      refine .toEnd hs hfin (hinner.of_eq ?_)
      simp only [opens, nesting, ExpressionSymbol.nesting, Conditional.nesting]
      omega
  | loop hstart hinit hsemi htest hsemi' hstep hdo _ hfin ih =>
      intro s k hs
      have hbody := hs.inBody
      have hinside := hbody.toInside
      have hinits := (hinit.spans hinside).append ((htest.spans hinside).inert hsemi rfl)
      have hhead := (hinits.append ((hstep.spans hinside).inert hsemi' rfl)).cons hstart
        (hs.count_of_opens (k := .kwFor) trivial) rfl
      refine .toEnd hs hfin ((hhead.append ((ih hbody).inert hdo rfl)).of_eq ?_)
      simp only [opens, nesting, ExpressionSymbol.nesting, Loop.nesting]
      omega

end StatementSymbol

/-! ## Workflows -/

theorem DerivesAction.staysOutside {a : Action} (h : DerivesAction ts a) (hs : s.Outside) :
    s.StaysOutside ts a.nesting := by
  cases h with
  | @action start ts fin phase statements hstart hbody hfin =>
      obtain ⟨hcount, houtside, hguarding⟩ := hs.enter (k := phase.kind) (by cases phase <;> decide)
      have hspans := (hbody.spans (houtside.between hguarding)).of_eq (Nat.zero_add _)
      exact (StaysOutside.cons ⟨_, houtside, hspans⟩ hstart hcount).toEnd hfin

theorem DerivesTransition.staysOutside {t : Transition} (h : DerivesTransition ts t)
    (hs : s.Outside) : s.StaysOutside ts t.nesting := by
  have houtside := hs.step_kwTransition
  cases h with
  | transition hstart hto htarget hguard =>
      refine (StaysOutside.inert (.inert ?_ htarget rfl) hto rfl).cons hstart hs.count_kwTransition
      cases hguard with
      | none => exact .nil houtside
      | some hif htest =>
          have hspans := (htest.spans hs.step_guard.inside).of_eq (Nat.zero_add _)
          exact StaysOutside.cons ⟨_, hs.step_guard, hspans⟩ hif hs.count_guard

theorem DerivesMembers.staysOutside {as : List Action} {trs : List Transition}
    (h : DerivesMembers ts as trs) : ∀ {s : Surroundings}, s.Outside →
      s.StaysOutside ts (max (largest Action.nesting as) (largest Transition.nesting trs)) := by
  induction h with
  | nil => exact .nil
  | @action ts us a as trs ha _ ih =>
      intro s hs
      have hmembers := (ha.staysOutside hs).append ih
      rwa [← Nat.max_assoc] at hmembers
  | @transition ts us t as trs ht _ ih =>
      intro s hs
      have hmembers := (ht.staysOutside hs).append ih
      rwa [Nat.max_left_comm] at hmembers

theorem DerivesNode.staysOutside {n : Node} (h : DerivesNode ts n) (hs : s.Outside) :
    s.StaysOutside ts n.nesting := by
  cases h with
  | @node start name ts fin kind actions transitions hstart hname hmembers hfin =>
      exact (((hmembers.staysOutside hs).inert hname rfl).inert hstart
        (by cases kind <;> rfl)).toEnd hfin

theorem DerivesNodes.staysOutside {ns : List Node} (h : DerivesNodes ts ns) :
    ∀ {s : Surroundings}, s.Outside → s.StaysOutside ts (largest Node.nesting ns) := by
  induction h with
  | nil => exact .nil
  | cons hn _ ih => exact fun hs => (hn.staysOutside hs).append ih

theorem DerivesWorkflow.staysOutside {w : Workflow} (h : DerivesWorkflow ts w) (hs : s.Outside) :
    s.StaysOutside ts w.nesting := by
  cases h with
  | workflow hstart hname hnodes hfin =>
      exact (((hnodes.staysOutside hs).inert hname rfl).inert hstart rfl).toEnd hfin

end Grammar

/-! ## Start symbols -/

theorem Entry.Derives.highest_eq {e : Entry} {ts : List Token} {t : e.Tree}
    (h : e.Derives ts t) : outermost.highest ts = e.nesting t :=
  have houtside : Outside outermost := ⟨rfl, rfl, rfl⟩
  match e, t, h with
  | .workflow, _, h => by
      obtain ⟨_, _, hspans⟩ := DerivesWorkflow.staysOutside h houtside
      exact hspans.highest_eq
  | .condition, _, h =>
      (ExpressionSymbol.Derives.spans h houtside.inside).highest_eq.trans (Nat.zero_add _)
  | .script, _, h =>
      (StatementSymbol.Derives.spans h (houtside.between rfl)).highest_eq.trans (Nat.zero_add _)

/-- A sentence stays within `n` constructs if and only if its tree needs `n`
levels at most. -/
theorem Entry.Derives.counts_le_iff {e : Entry} {ts : List Token} {t : e.Tree}
    (h : e.Derives ts t) (n : Nat) :
    (∀ m ∈ outermost.counts ts, m ≤ n) ↔ e.nesting t ≤ n := by
  rw [← highest_le_iff (Nat.zero_le n), h.highest_eq]

end WorkflowScript
