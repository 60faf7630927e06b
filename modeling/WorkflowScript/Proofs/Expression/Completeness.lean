import WorkflowScript.Proofs.Expression.Recognition

/-!
# Every derivation of an expression is parsed

The converse of recognition. A sentence is parsed to its tree if the token
behind it could not go on with it (`ExpressionSymbol.continuers`) and its
nesting fits into the free levels. The induction is on the derivation. What
has to be checked at every step is that the token behind a part cannot go on
with that part: either it opens the next part, or it is the token behind the
whole.
-/

namespace WorkflowScript.Grammar

open WorkflowScript.Parser

variable {σ : Type} [TokenSource σ]

namespace ExpressionSymbol

/-! ## Parsers and lookahead of the nonterminals -/

/-- The parser of a nonterminal. -/
def parser : (s : ExpressionSymbol) → Nat → Parser σ s.Tree
  | condition, n => Grammar.condition n
  | alternatives, n => chainOn .kwOr (Grammar.conjunction n)
  | conjunction, n => Grammar.conjunction n
  | conjuncts, n => chainOn .kwAnd (Grammar.clause n)
  | clause, n => Grammar.clause n
  | relation, n => Grammar.relation n
  | expression, n => Grammar.expression n
  | addends, n => chain addOp? (Grammar.term n)
  | term, n => Grammar.term n
  | multipliers, n => chain mulOp? (Grammar.factor n)
  | factor, n => Grammar.factor n
  | call, n => Grammar.call n
  | arguments, n => Grammar.arguments n
  | moreArguments, n => chainOn .comma (Grammar.expression n)

/-- The kinds of tokens that a sentence may start with. -/
def starters : ExpressionSymbol → List TokenKind
  | condition | conjunction | clause => .kwNot :: factorStarts
  | relation | expression | term | factor => factorStarts
  | call => [.identifier]
  | arguments => [.leftParen]
  | alternatives => [.kwOr]
  | conjuncts => [.kwAnd]
  | addends => [.plus, .minus]
  | multipliers => [.star, .slash]
  | moreArguments => [.comma]

/-- The kinds of tokens that might go on with some sentence. -/
def continuers : ExpressionSymbol → List TokenKind
  | condition | alternatives =>
    [.leftParen, .star, .slash, .plus, .minus, .greater, .less, .equals, .kwAnd, .kwOr]
  | conjunction | conjuncts =>
    [.leftParen, .star, .slash, .plus, .minus, .greater, .less, .equals, .kwAnd]
  | clause | relation => [.leftParen, .star, .slash, .plus, .minus, .greater, .less, .equals]
  | expression | addends => [.leftParen, .star, .slash, .plus, .minus]
  | term | multipliers => [.leftParen, .star, .slash]
  | factor => [.leftParen]
  | call | arguments => []
  | moreArguments => [.leftParen, .star, .slash, .plus, .minus, .comma]

/-- What a nonterminal stands behind, if it has the empty sentence. -/
def previous? : ExpressionSymbol → Option ExpressionSymbol
  | alternatives => some conjunction
  | conjuncts => some clause
  | addends => some term
  | multipliers => some factor
  | moreArguments => some expression
  | _ => none

/-! One token of lookahead suffices: what starts an optional part cannot go
on with the part in front of it. -/

theorem not_mem_continuers_of_starters {s p : ExpressionSymbol} (h : s.previous? = some p) :
    ∀ k ∈ s.starters, k ∉ p.continuers := by
  cases s <;> cases h <;> decide

theorem continuers_subset {s p : ExpressionSymbol} (h : s.previous? = some p) :
    ∀ k ∈ p.continuers, k ∈ s.continuers := by
  cases s <;> cases h <;> decide

theorem addOpKind_mem (op : AddOp) : op.kind ∈ starters .addends := by
  cases op <;> decide

theorem mulOpKind_mem (op : MulOp) : op.kind ∈ starters .multipliers := by
  cases op <;> decide

theorem relation_continuers_of_expression :
    ∀ k ∈ continuers .expression, k ∈ continuers .relation := by
  decide

/-- A sentence is empty or starts with one of the starters. -/
theorem Derives.current_mem_starters {s : ExpressionSymbol} {ts : List Token} {t : s.Tree}
    (h : s.Derives ts t) : ∀ {c c' : Cursor σ}, c.Consumes ts c' →
      c.current.kind ∈ s.starters ∨ s.previous?.isSome ∧ c = c' := by
  induction h with
  | condition _ _ ih _ | conjunction _ _ ih _ | expression _ _ ih _ | term _ _ ih _ =>
      intro c c' hc
      obtain ⟨d, hcd, -⟩ := Cursor.consumes_append.mp hc
      exact .inl ((ih hcd).resolve_right fun h => by cases h.1)
  | clause _ ih =>
      intro c c' hc
      exact .inl (List.mem_cons_of_mem _ ((ih hc).resolve_right fun h => by cases h.1))
  | relation _ ih =>
      intro c c' hc
      exact .inl ((ih hc).resolve_right fun h => by cases h.1)
  | comparison _ _ _ ih _ =>
      intro c c' hc
      obtain ⟨d, hcd, -⟩ := Cursor.consumes_append.mp hc
      exact .inl ((ih hcd).resolve_right fun h => by cases h.1)
  | callFactor _ ih =>
      intro c c' hc
      have := (ih hc).resolve_right fun h => by cases h.1
      exact .inl (by simp_all [starters, factorStarts])
  | noAlternative | noConjunct | noAddend | noMultiplier | noMoreArguments =>
      intro c c' hc
      exact .inr ⟨rfl, hc.symm⟩
  | addend hsign _ _ _ _ =>
      intro c c' hc
      exact .inl (by rw [hc.1, hsign]; exact addOpKind_mem _)
  | multiplier hsign _ _ _ _ =>
      intro c c' hc
      exact .inl (by rw [hc.1, hsign]; exact mulOpKind_mem _)
  | _ =>
      intro c c' hc
      exact .inl (by simp_all [starters, factorStarts, hc.1])

/-- Between a part and an optional part behind it lies a cursor whose token
cannot go on with the first. -/
theorem Derives.between {s p : ExpressionSymbol} {ts us : List Token} {t : s.Tree}
    {c c' : Cursor σ} (h : s.Derives us t) (hp : s.previous? = some p)
    (hc : c.Consumes (ts ++ us) c') (hfollow : c'.current.kind ∉ s.continuers) :
    ∃ d, c.Consumes ts d ∧ d.current.kind ∉ p.continuers ∧ d.Consumes us c' := by
  obtain ⟨d, hcd, hdc'⟩ := Cursor.consumes_append.mp hc
  refine ⟨d, hcd, ?_, hdc'⟩
  rcases h.current_mem_starters hdc' with hmem | ⟨-, rfl⟩
  · exact not_mem_continuers_of_starters hp _ hmem
  · exact fun hmem => hfollow (continuers_subset hp _ hmem)

/-- The same behind the token that announces the part. -/
theorem Derives.between_cons {s p : ExpressionSymbol} {x : Token} {ts us : List Token}
    {t : s.Tree} {c c' : Cursor σ} (h : s.Derives us t) (hp : s.previous? = some p)
    (hc : c.Consumes (x :: ts ++ us) c') (hfollow : c'.current.kind ∉ s.continuers) :
    c.current = x ∧
      ∃ d, c.advance.Consumes ts d ∧ d.current.kind ∉ p.continuers ∧ d.Consumes us c' := by
  obtain ⟨hcur, -, hc⟩ := hc
  exact ⟨hcur, h.between hp hc hfollow⟩

/-- An argument list opens with a bracket. -/
theorem current_of_arguments {ts : List Token} {args : List Expression} {c c' : Cursor σ}
    (h : arguments.Derives ts args) (hc : c.Consumes ts c') : c.current.kind = .leftParen :=
  List.mem_singleton.mp ((h.current_mem_starters hc).resolve_right fun h => by cases h.1)

end ExpressionSymbol

open ExpressionSymbol

/-! ## The recursion on levels in one equation -/

/-- A group, which takes one level. -/
def group : (levels : Nat) → Parser σ Condition
  | 0 => tooDeep
  | levels + 1 => groupOf (factor levels)

theorem factor_eq (n : Nat) :
    (factor n : Parser σ Factor) = factorOf (arguments n) (group n) := by
  cases n <;> rfl

/-- What takes a level leaves the others to its parts. -/
theorem exists_level {k n : Nat} (h : k + 1 ≤ n) : ∃ m, n = m + 1 ∧ k ≤ m := by
  cases n with
  | zero => cases h
  | succ m => exact ⟨m, rfl, Nat.le_of_succ_le_succ h⟩

/-! ## Factors, calls and comparisons by their parts -/

theorem runs_variable {n : Nat} {c : Cursor σ} (hname : c.current.kind = .identifier)
    (hparen : c.advance.current.kind ≠ .leftParen) :
    (factor n).Runs c (.variable c.current.text c.current.position) c.advance := by
  rw [factor_eq, factorOf, runs_peek_bind, hname]
  refine runs_advance_bind.mpr (runs_peek_bind.mpr ?_)
  rw [if_neg hparen]
  exact runs_pure.mpr ⟨rfl, rfl⟩

theorem runs_call {n : Nat} {c c' : Cursor σ} {args : List Expression}
    (hname : c.current.kind = .identifier) (hargs : (arguments n).Runs c.advance args c') :
    (call n).Runs c ⟨c.current.text, args, c.current.position⟩ c' :=
  runs_expect_bind.mpr ⟨hname, runs_bind.mpr ⟨args, c', hargs, runs_pure.mpr ⟨rfl, rfl⟩⟩⟩

/-- A call is a factor, told from a variable by its bracket. -/
theorem runs_callFactor {n : Nat} {c c' : Cursor σ} {made : Call}
    (h : (call n).Runs c made c') (hparen : c.advance.current.kind = .leftParen) :
    (factor n).Runs c (.call made) c' := by
  obtain ⟨hname, hargs⟩ := runs_expect_bind.mp h
  rw [factor_eq, factorOf, runs_peek_bind, hname]
  refine runs_advance_bind.mpr (runs_peek_bind.mpr ?_)
  rw [if_pos hparen]
  exact runs_bind.mpr ⟨made, c', hargs, runs_pure.mpr ⟨rfl, rfl⟩⟩

theorem runs_group {n : Nat} {c d : Cursor σ} {inner : Condition}
    (hlp : c.current.kind = .leftParen) (hinner : (condition n).Runs c.advance inner d)
    (hrp : d.current.kind = .rightParen) :
    (factor (n + 1)).Runs c (.group inner) d.advance := by
  have hgroup : (group (n + 1)).Runs c inner d.advance :=
    runs_expect_bind.mpr ⟨hlp, runs_bind.mpr ⟨inner, d, hinner,
      runs_expect_bind.mpr ⟨hrp, runs_pure.mpr ⟨rfl, rfl⟩⟩⟩⟩
  rw [factor_eq, factorOf, runs_peek_bind, hlp]
  exact runs_bind.mpr ⟨inner, d.advance, hgroup, runs_pure.mpr ⟨rfl, rfl⟩⟩

theorem runs_comparison {n : Nat} {c d c' : Cursor σ} {op : RelOp} {left right : Expression}
    (hleft : (expression n).Runs c left d) (hop : d.current.kind = op.kind)
    (hright : (expression n).Runs d.advance right c') :
    (relation n).Runs c ⟨left, some (op, right)⟩ c' := by
  refine runs_bind.mpr ⟨left, d, hleft, runs_peek_bind.mpr ?_⟩
  rw [relOp?_eq_some.mpr hop]
  exact runs_advance_bind.mpr (runs_bind.mpr ⟨right, c', hright, runs_pure.mpr ⟨rfl, rfl⟩⟩)

/-! ## What cannot go on -/

theorem addOp?_eq_none {k : TokenKind} (h : k ∉ continuers .addends) : addOp? k = none := by
  cases k <;> first | rfl | exact absurd (by decide) h

theorem mulOp?_eq_none {k : TokenKind} (h : k ∉ continuers .multipliers) : mulOp? k = none := by
  cases k <;> first | rfl | exact absurd (by decide) h

theorem relOp?_eq_none {k : TokenKind} (h : k ∉ continuers .relation) : relOp? k = none := by
  cases k <;> first | rfl | exact absurd (by decide) h

theorem relOpKind_not_mem (op : RelOp) : op.kind ∉ continuers .expression := by
  cases op <;> decide

/-! ## Completeness -/

theorem ExpressionSymbol.Derives.runs {s : ExpressionSymbol} {ts : List Token} {t : s.Tree}
    (h : s.Derives ts t) :
    ∀ {n : Nat} {c c' : Cursor σ}, s.nesting t ≤ n → c.Consumes ts c' →
      c'.current.kind ∉ s.continuers → (s.parser n).Runs c t c' := by
  induction h with
  | condition _ hrest ihfirst ihrest | conjunction _ hrest ihfirst ihrest
  | expression _ hrest ihfirst ihrest | term _ hrest ihfirst ihrest =>
      intro n c c' hn hc hfollow
      obtain ⟨hn₁, hn₂⟩ := Nat.max_le.mp hn
      obtain ⟨d, hcd, hd, hdc'⟩ := hrest.between rfl hc hfollow
      exact (ihfirst hn₁ hcd hd).both (ihrest hn₂ hdc' hfollow)
  | noAlternative =>
      intro n c c' _ hc hfollow
      obtain rfl := hc
      refine runs_chainOn_nil (by decide) (recognises_conjunction n).steady fun hor => ?_
      simp [continuers, hor] at hfollow
  | alternative hor _ hrest ihfirst ihrest =>
      intro n c c' hn hc hfollow
      obtain ⟨hn₁, hn₂⟩ := Nat.max_le.mp hn
      obtain ⟨rfl, d, hcd, hd, hdc'⟩ := hrest.between_cons rfl hc hfollow
      exact runs_chainOn_cons (by decide) (recognises_conjunction n).steady hor
        (ihfirst hn₁ hcd hd) (ihrest hn₂ hdc' hfollow)
  | noConjunct =>
      intro n c c' _ hc hfollow
      obtain rfl := hc
      refine runs_chainOn_nil (by decide) (recognises_clause n).steady fun hand => ?_
      simp [continuers, hand] at hfollow
  | conjunct hand _ hrest ihfirst ihrest =>
      intro n c c' hn hc hfollow
      obtain ⟨hn₁, hn₂⟩ := Nat.max_le.mp hn
      obtain ⟨rfl, d, hcd, hd, hdc'⟩ := hrest.between_cons rfl hc hfollow
      exact runs_chainOn_cons (by decide) (recognises_clause n).steady hand
        (ihfirst hn₁ hcd hd) (ihrest hn₂ hdc' hfollow)
  | clause hr ih =>
      intro n c c' hn hc hfollow
      have hmem := (hr.current_mem_starters hc).resolve_right fun h => by cases h.1
      have hnot : c.current.kind ≠ .kwNot := fun h => by simp [starters, factorStarts, h] at hmem
      exact (runs_accept_bind_neg hnot).mpr (runs_bind.mpr
        ⟨_, c', ih hn hc hfollow, runs_pure.mpr ⟨rfl, rfl⟩⟩)
  | negation hnot _ ih =>
      intro n c c' hn hc hfollow
      obtain ⟨hcur, -, hc⟩ := hc
      exact (runs_accept_bind_pos (hcur ▸ hnot)).mpr (runs_bind.mpr
        ⟨_, c', ih hn hc hfollow, runs_pure.mpr ⟨rfl, rfl⟩⟩)
  | relation _ ih =>
      intro n c c' hn hc hfollow
      have hexpr : c'.current.kind ∉ continuers .expression := fun hmem =>
        hfollow (relation_continuers_of_expression _ hmem)
      refine runs_bind.mpr ⟨_, c', ih hn hc hexpr, runs_peek_bind.mpr ?_⟩
      rw [relOp?_eq_none hfollow]
      exact runs_pure.mpr ⟨rfl, rfl⟩
  | comparison _ hsign _ ihleft ihright =>
      intro n c c' hn hc hfollow
      obtain ⟨hn₁, hn₂⟩ := Nat.max_le.mp hn
      obtain ⟨d, hcd, hcur, -, hdc'⟩ := Cursor.consumes_append.mp hc
      rw [← hcur] at hsign
      have hexpr : c'.current.kind ∉ continuers .expression := fun hmem =>
        hfollow (relation_continuers_of_expression _ hmem)
      have hd : d.current.kind ∉ continuers .expression := by
        rw [hsign]
        exact relOpKind_not_mem _
      exact runs_comparison (ihleft hn₁ hcd hd) hsign (ihright hn₂ hdc' hexpr)
  | noAddend =>
      intro n c c' _ hc hfollow
      obtain rfl := hc
      exact runs_chain_nil rfl (recognises_term n).steady (addOp?_eq_none hfollow)
  | addend hsign _ hrest ihfirst ihrest =>
      intro n c c' hn hc hfollow
      obtain ⟨hn₁, hn₂⟩ := Nat.max_le.mp hn
      obtain ⟨rfl, d, hcd, hd, hdc'⟩ := hrest.between_cons rfl hc hfollow
      exact runs_chain_cons rfl (recognises_term n).steady (addOp?_eq_some.mpr hsign)
        (ihfirst hn₁ hcd hd) (ihrest hn₂ hdc' hfollow)
  | noMultiplier =>
      intro n c c' _ hc hfollow
      obtain rfl := hc
      exact runs_chain_nil rfl (recognises_factor n).steady (mulOp?_eq_none hfollow)
  | multiplier hsign _ hrest ihfirst ihrest =>
      intro n c c' hn hc hfollow
      obtain ⟨hn₁, hn₂⟩ := Nat.max_le.mp hn
      obtain ⟨rfl, d, hcd, hd, hdc'⟩ := hrest.between_cons rfl hc hfollow
      exact runs_chain_cons rfl (recognises_factor n).steady (mulOp?_eq_some.mpr hsign)
        (ihfirst hn₁ hcd hd) (ihrest hn₂ hdc' hfollow)
  | variableFactor hname =>
      intro n c c' _ hc hfollow
      obtain ⟨rfl, -, rfl⟩ := hc
      refine runs_variable hname fun hparen => ?_
      simp [continuers, hparen] at hfollow
  | callFactor hcall ih =>
      intro n c c' hn hc hfollow
      have hparen : c.advance.current.kind = .leftParen := by
        cases hcall with
        | call _ hderives => exact current_of_arguments hderives hc.2.2
      exact runs_callFactor (ih hn hc List.not_mem_nil) hparen
  | integer hkind | string hkind | true hkind | false hkind =>
      intro n c c' _ hc _
      obtain ⟨rfl, -, rfl⟩ := hc
      rw [parser, factor_eq, factorOf, runs_peek_bind, hkind]
      exact runs_advance_bind.mpr (runs_pure.mpr ⟨rfl, rfl⟩)
  | group hlp _ hrp ih =>
      intro n c c' hn hc _
      obtain ⟨m, rfl, hm⟩ := exists_level hn
      obtain ⟨d, ⟨rfl, -, hcd⟩, rfl, -, rfl⟩ := Cursor.consumes_append.mp hc
      have hd : d.current.kind ∉ continuers .condition := by
        rw [hrp]
        decide
      exact runs_group hlp (ih hm hcd hd) hrp
  | call hname _ ih =>
      intro n c c' hn hc _
      obtain ⟨rfl, -, hc⟩ := hc
      exact runs_call hname (ih hn hc List.not_mem_nil)
  | noArguments hlp hrp =>
      intro n c c' hn hc _
      obtain ⟨m, rfl, -⟩ := exists_level hn
      obtain ⟨rfl, -, rfl, -, rfl⟩ := hc
      exact runs_bracketed_nil hlp hrp
  | arguments hlp hfirst hrest hrp ihfirst ihrest =>
      intro n c c' hn hc _
      obtain ⟨m, rfl, hm⟩ := exists_level hn
      obtain ⟨hn₁, hn₂⟩ := Nat.max_le.mp hm
      rw [List.cons_append, List.cons_append] at hc
      obtain ⟨rfl, -, hc⟩ := hc
      obtain ⟨e, hce, rfl, -, rfl⟩ := Cursor.consumes_append.mp hc
      have he : e.current.kind ∉ continuers .moreArguments := by
        rw [hrp]
        decide
      obtain ⟨d, hcd, hd, hde⟩ := hrest.between rfl hce he
      have hmem := (hfirst.current_mem_starters hcd).resolve_right fun h => by cases h.1
      refine runs_bracketed_cons hlp (fun h => ?_) (ihfirst hn₁ hcd hd) (ihrest hn₂ hde he) hrp
      simp [starters, factorStarts, h] at hmem
  | noMoreArguments =>
      intro n c c' _ hc hfollow
      obtain rfl := hc
      refine runs_chainOn_nil (by decide) (recognises_expression n).steady fun hcomma => ?_
      simp [continuers, hcomma] at hfollow
  | moreArguments hcomma _ hrest ihfirst ihrest =>
      intro n c c' hn hc hfollow
      obtain ⟨hn₁, hn₂⟩ := Nat.max_le.mp hn
      obtain ⟨rfl, d, hcd, hd, hdc'⟩ := hrest.between_cons rfl hc hfollow
      exact runs_chainOn_cons (by decide) (recognises_expression n).steady hcomma
        (ihfirst hn₁ hcd hd) (ihrest hn₂ hdc' hfollow)

end WorkflowScript.Grammar
