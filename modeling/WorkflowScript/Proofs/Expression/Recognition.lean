import WorkflowScript.Grammar.Expression
import WorkflowScript.Proofs.Expression.Derivation
import WorkflowScript.Proofs.Parser.Recognition

/-!
# Parsers of expressions recognise the grammar

Each production's parser recognises the sentences of its nonterminal whose
trees need no more than the free levels. The layers between a condition and
its factors are settled for any recogniser of factors; the recursion on
levels is in `recognises_factor` alone.
-/

namespace WorkflowScript.Grammar

open WorkflowScript.Language WorkflowScript.Parser

variable {σ : Type} [TokenSource σ]

/-! ## The language of a nonterminal -/

namespace ExpressionSymbol

/-- The sentences of a nonterminal whose trees need at most `n` levels. -/
abbrev within (s : ExpressionSymbol) : Language s.Tree := bounded s.Derives s.nesting

/-- A literal is a factor at every level. -/
theorem within_factor_literal (n : Nat) :
    within .factor n [.plain .integer] (.integer "") :=
  ⟨.integer rfl, Nat.zero_le n⟩

theorem within_term_single {n ts f} (h : within .factor n ts f) :
    within .term n ts ⟨f, []⟩ :=
  ⟨by simpa using Derives.term h.1 .noMultiplier, Nat.max_le.mpr ⟨h.2, Nat.zero_le n⟩⟩

theorem within_expression_single {n ts t} (h : within .term n ts t) :
    within .expression n ts ⟨t, []⟩ :=
  ⟨by simpa using Derives.expression h.1 .noAddend, Nat.max_le.mpr ⟨h.2, Nat.zero_le n⟩⟩

theorem within_relation_single {n ts e} (h : within .expression n ts e) :
    within .relation n ts ⟨e, none⟩ :=
  ⟨.relation h.1, h.2⟩

theorem within_clause_single {n ts r} (h : within .relation n ts r) :
    within .clause n ts ⟨false, r⟩ :=
  ⟨.clause h.1, h.2⟩

theorem within_conjunction_single {n ts c} (h : within .clause n ts c) :
    within .conjunction n ts ⟨c, []⟩ :=
  ⟨by simpa using Derives.conjunction h.1 .noConjunct, Nat.max_le.mpr ⟨h.2, Nat.zero_le n⟩⟩

theorem within_condition_single {n ts c} (h : within .conjunction n ts c) :
    within .condition n ts ⟨c, []⟩ :=
  ⟨by simpa using Derives.condition h.1 .noAlternative, Nat.max_le.mpr ⟨h.2, Nat.zero_le n⟩⟩

instance : Productive (within .factor) := ⟨fun n => ⟨_, _, within_factor_literal n⟩⟩

instance : Productive (within .term) :=
  ⟨fun n => ⟨_, _, within_term_single (within_factor_literal n)⟩⟩

instance : Productive (within .expression) :=
  ⟨fun n => ⟨_, _, within_expression_single (within_term_single (within_factor_literal n))⟩⟩

instance : Productive (within .relation) where
  sentence n := by
    obtain ⟨ts, e, h⟩ := Productive.sentence (L := within .expression) n
    exact ⟨ts, _, within_relation_single h⟩

instance : Productive (within .clause) where
  sentence n := by
    obtain ⟨ts, r, h⟩ := Productive.sentence (L := within .relation) n
    exact ⟨ts, _, within_clause_single h⟩

instance : Productive (within .conjunction) where
  sentence n := by
    obtain ⟨ts, c, h⟩ := Productive.sentence (L := within .clause) n
    exact ⟨ts, _, within_conjunction_single h⟩

instance : Productive (within .condition) where
  sentence n := by
    obtain ⟨ts, c, h⟩ := Productive.sentence (L := within .conjunction) n
    exact ⟨ts, _, within_condition_single h⟩

end ExpressionSymbol

open ExpressionSymbol

/-! ## Operators -/

theorem addOp?_eq_some {k : TokenKind} {op : AddOp} : addOp? k = some op ↔ k = op.kind := by
  cases k <;> cases op <;> simp [addOp?, AddOp.kind]

theorem mulOp?_eq_some {k : TokenKind} {op : MulOp} : mulOp? k = some op ↔ k = op.kind := by
  cases k <;> cases op <;> simp [mulOp?, MulOp.kind]

theorem relOp?_eq_some {k : TokenKind} {op : RelOp} : relOp? k = some op ↔ k = op.kind := by
  cases k <;> cases op <;> simp [relOp?, RelOp.kind]

/-! ## Operands behind operators -/

theorem within_multipliers {n ts fs} (h : Chained mulOp? (within .factor) n ts fs) :
    within .multipliers n ts fs := by
  induction h with
  | nil => exact ⟨.noMultiplier, Nat.zero_le n⟩
  | cons hop hx _ ih =>
      exact ⟨.multiplier (mulOp?_eq_some.mp hop) hx.1 ih.1, Nat.max_le.mpr ⟨hx.2, ih.2⟩⟩

theorem within_addends {n ts fs} (h : Chained addOp? (within .term) n ts fs) :
    within .addends n ts fs := by
  induction h with
  | nil => exact ⟨.noAddend, Nat.zero_le n⟩
  | cons hop hx _ ih =>
      exact ⟨.addend (addOp?_eq_some.mp hop) hx.1 ih.1, Nat.max_le.mpr ⟨hx.2, ih.2⟩⟩

theorem within_conjuncts {n ts cs} (h : Listed .kwAnd (within .clause) n ts cs) :
    within .conjuncts n ts cs := by
  induction h with
  | nil => exact ⟨.noConjunct, Nat.zero_le n⟩
  | cons hand hx _ ih => exact ⟨.conjunct hand hx.1 ih.1, Nat.max_le.mpr ⟨hx.2, ih.2⟩⟩

theorem within_alternatives {n ts cs} (h : Listed .kwOr (within .conjunction) n ts cs) :
    within .alternatives n ts cs := by
  induction h with
  | nil => exact ⟨.noAlternative, Nat.zero_le n⟩
  | cons hor hx _ ih => exact ⟨.alternative hor hx.1 ih.1, Nat.max_le.mpr ⟨hx.2, ih.2⟩⟩

theorem within_moreArguments {n ts es} (h : Listed .comma (within .expression) n ts es) :
    within .moreArguments n ts es := by
  induction h with
  | nil => exact ⟨.noMoreArguments, Nat.zero_le n⟩
  | cons hcomma hx _ ih => exact ⟨.moreArguments hcomma hx.1 ih.1, Nat.max_le.mpr ⟨hx.2, ih.2⟩⟩

/-- An argument list lies one level above what is in it. -/
theorem within_arguments {n ts es} (h : Bracketed (within .expression) n ts es) :
    within .arguments (n + 1) ts es := by
  cases h with
  | none hlp hrp => exact ⟨.noArguments hlp hrp, Nat.succ_le_succ (Nat.zero_le n)⟩
  | some hlp he hes hrp =>
      have hes := within_moreArguments hes
      exact ⟨.arguments hlp he.1 hes.1 hrp,
        Nat.succ_le_succ (Nat.max_le.mpr ⟨he.2, hes.2⟩)⟩

/-! ## Languages inside productions -/

/-- The end of a relation whose left side is known. -/
def comparisonBehind (left : Expression) : Language Relation := fun n ts r =>
  (ts = [] ∧ r = ⟨left, none⟩) ∨
    ∃ t us op right, ts = t :: us ∧ t.kind = RelOp.kind op ∧ within .expression n us right ∧
      r = ⟨left, some (op, right)⟩

instance (left : Expression) : Growing (comparisonBehind left) where
  grow hle := by
    rintro (h | ⟨t, us, op, right, rfl, ht, hright, rfl⟩)
    · exact .inl h
    · exact .inr ⟨t, us, op, right, rfl, ht, Growing.grow hle hright, rfl⟩

instance (left : Expression) : Productive (comparisonBehind left) :=
  ⟨fun _ => ⟨[], _, .inl ⟨rfl, rfl⟩⟩⟩

/-- A condition in brackets, which is a factor. -/
def grouped : Language Condition := fun n ts c => within .factor n ts (.group c)

instance : Growing grouped := ⟨fun hle h => Growing.grow (L := within .factor) hle h⟩

/-! ## The layers over a parser of factors -/

section Layers

variable {factor : Parser σ Factor} {n : Nat}
  (hfactor : Recognises anywhere factor (within .factor) n)

include hfactor

theorem recognises_termOf : Recognises anywhere (termOf factor) (within .term) n := by
  refine Recognises.mono (.bind hfactor fun first => .bind (.chain rfl hfactor) fun rest =>
    .pure _) ?_
  rintro n _ _ ⟨us, first, _, rfl, hfirst, vs, rest, _, rfl, hrest, rfl, rfl⟩
  have hrest := within_multipliers hrest
  rw [List.append_nil]
  exact ⟨.term hfirst.1 hrest.1, Nat.max_le.mpr ⟨hfirst.2, hrest.2⟩⟩

theorem recognises_expressionOf :
    Recognises anywhere (expressionOf factor) (within .expression) n := by
  have hterm := recognises_termOf hfactor
  refine Recognises.mono (.bind hterm fun first => .bind (.chain rfl hterm) fun rest =>
    .pure _) ?_
  rintro n _ _ ⟨us, first, _, rfl, hfirst, vs, rest, _, rfl, hrest, rfl, rfl⟩
  have hrest := within_addends hrest
  rw [List.append_nil]
  exact ⟨.expression hfirst.1 hrest.1, Nat.max_le.mpr ⟨hfirst.2, hrest.2⟩⟩

theorem recognises_relationOf :
    Recognises anywhere (relationOf factor) (within .relation) n := by
  have hexpr := recognises_expressionOf hfactor
  refine Recognises.mono (L := Language.andThen (within .expression) comparisonBehind)
    (.bind hexpr fun left => .peek fun k _ => ?_) ?_
  · cases hop : relOp? k with
    | none => exact .mono (.pure _) .inl
    | some op =>
        have hk : k ≠ .endOfInput := fun he => by rw [he] at hop; cases hop
        refine .mono (.bind (.advance hk) fun t => .bind hexpr fun right => .pure _) ?_
        rintro n _ _ ⟨_, t, _, rfl, ⟨rfl, ht⟩, us, right, _, rfl, hright, rfl, rfl⟩
        exact .inr ⟨t, us, op, right, by simp, relOp?_eq_some.mp (ht ▸ hop), hright, rfl⟩
  · rintro n _ _ ⟨us, left, _, rfl, hleft, ⟨rfl, rfl⟩ | ⟨t, vs, op, right, rfl, ht, hright, rfl⟩⟩
    · rw [List.append_nil]
      exact within_relation_single hleft
    · exact ⟨.comparison hleft.1 ht hright.1, Nat.max_le.mpr ⟨hleft.2, hright.2⟩⟩

theorem recognises_clauseOf : Recognises anywhere (clauseOf factor) (within .clause) n := by
  have hrel := recognises_relationOf hfactor
  refine Recognises.mono (.acceptThen (by decide) (.bind hrel fun r => .pure _)
    (.bind hrel fun r => .pure _)) ?_
  rintro n _ _ (⟨t, _, rfl, ht, us, r, _, rfl, hr, rfl, rfl⟩ | ⟨us, r, _, rfl, hr, rfl, rfl⟩)
  · rw [List.append_nil]
    exact ⟨.negation ht hr.1, hr.2⟩
  · rw [List.append_nil]
    exact within_clause_single hr

theorem recognises_conjunctionOf :
    Recognises anywhere (conjunctionOf factor) (within .conjunction) n := by
  have hclause := recognises_clauseOf hfactor
  refine Recognises.mono (.bind hclause fun first =>
    .bind (.chainOn (by decide) hclause) fun rest => .pure _) ?_
  rintro n _ _ ⟨us, first, _, rfl, hfirst, vs, rest, _, rfl, hrest, rfl, rfl⟩
  have hrest := within_conjuncts hrest
  rw [List.append_nil]
  exact ⟨.conjunction hfirst.1 hrest.1, Nat.max_le.mpr ⟨hfirst.2, hrest.2⟩⟩

theorem recognises_conditionOf :
    Recognises anywhere (conditionOf factor) (within .condition) n := by
  have hconj := recognises_conjunctionOf hfactor
  refine Recognises.mono (.bind hconj fun first =>
    .bind (.chainOn (by decide) hconj) fun rest => .pure _) ?_
  rintro n _ _ ⟨us, first, _, rfl, hfirst, vs, rest, _, rfl, hrest, rfl, rfl⟩
  have hrest := within_alternatives hrest
  rw [List.append_nil]
  exact ⟨.condition hfirst.1 hrest.1, Nat.max_le.mpr ⟨hfirst.2, hrest.2⟩⟩

/-- An argument list takes a level. -/
theorem recognises_argumentsOf :
    Recognises anywhere (argumentsOf factor) (within .arguments) (n + 1) := by
  refine .mono (.nested (.bracketed (recognises_expressionOf hfactor))) ?_
  rintro _ _ _ ⟨n, rfl, hargs⟩
  exact within_arguments hargs

/-- A group takes a level. -/
theorem recognises_groupOf : Recognises anywhere (groupOf factor) grouped (n + 1) := by
  refine .mono (.nested (.bind (.expect (by decide)) fun lp =>
    .bind (recognises_conditionOf hfactor) fun c =>
    .bind (.expect (by decide)) fun rp => .pure c)) ?_
  rintro _ _ _ ⟨n, rfl, _, lp, _, rfl, ⟨rfl, hlp⟩, us, c, _, rfl, hc, _, rp, _, rfl,
    ⟨rfl, hrp⟩, rfl, rfl⟩
  exact ⟨by simpa using Derives.group hlp hc.1 hrp, Nat.succ_le_succ hc.2⟩

end Layers

/-! ## Factors and the recursion on levels -/

/-- What is left of a factor behind its name. -/
def factorBehind (name : Token) : Language Factor := fun n ts f =>
  (ts = [] ∧ f = .variable name.text name.position) ∨
    ∃ args, within .arguments n ts args ∧ f = .call ⟨name.text, args, name.position⟩

instance (name : Token) : Growing (factorBehind name) where
  grow hle := by
    rintro (h | ⟨args, hargs, rfl⟩)
    · exact .inl h
    · exact .inr ⟨args, Growing.grow hle hargs, rfl⟩

instance (name : Token) : Productive (factorBehind name) :=
  ⟨fun _ => ⟨[], _, .inl ⟨rfl, rfl⟩⟩⟩

theorem promises_arguments {t : Token} (h : t.kind = .leftParen) :
    (within .arguments).Promises [t] :=
  ⟨1, [.plain .rightParen], _, .noArguments h rfl, Nat.le_refl _⟩

theorem promises_grouped {t : Token} (h : t.kind = .leftParen) : grouped.Promises [t] := by
  obtain ⟨ts, c, hc⟩ := Productive.sentence (L := within .condition) 0
  exact ⟨1, ts ++ [.plain .rightParen], c, .group h hc.1 rfl, Nat.succ_le_succ hc.2⟩

/-- Whatever can start a factor goes on to be one, given a level. -/
theorem promises_factor {t : Token} (h : t.kind ∈ factorStarts) :
    (within .factor).Promises [t] := by
  simp only [factorStarts, List.mem_cons, List.not_mem_nil, or_false] at h
  rcases h with h | h | h | h | h | h
  · exact ⟨0, [], _, .variableFactor h, Nat.zero_le _⟩
  · exact ⟨0, [], _, .integer h, Nat.zero_le _⟩
  · exact ⟨0, [], _, .string h, Nat.zero_le _⟩
  · exact ⟨0, [], _, .true h, Nat.zero_le _⟩
  · exact ⟨0, [], _, .false h, Nat.zero_le _⟩
  · obtain ⟨n, us, c, hc⟩ := promises_grouped h
    exact ⟨n, us, _, hc⟩

/-- Where no level is free, the opening token would go on with one more. -/
theorem recognises_tooDeep {α : Type} {start : TokenKind → Prop} {L : Language α} {n : Nat}
    (h : ∀ {t : Token}, start t.kind → L.Promises [t]) :
    Recognises start (tooDeep : Parser σ α) L n :=
  .unexpected fun hs t ht => by
    obtain rfl : t = _ := ht
    exact h hs

theorem recognises_factorOf {arguments : Parser σ (List Expression)}
    {group : Parser σ Condition} {n : Nat}
    (harguments : Recognises (· = .leftParen) arguments (within .arguments) n)
    (hgroup : Recognises (· = .leftParen) group grouped n) :
    Recognises anywhere (factorOf arguments group) (within .factor) n := by
  refine .peek fun k _ => ?_
  split
  · refine .mono (L := Language.andThen (token .identifier) factorBehind)
      (.bind (.advance (by decide)) fun name => .peek fun k _ => ?_) ?_
    · by_cases hk : k = .leftParen
      · subst hk
        rw [if_pos rfl]
        refine .mono (.bind (.bind harguments fun args => .pure _) fun call => .pure _) ?_
        rintro n _ _ ⟨_, call, _, rfl, ⟨us, args, _, rfl, hargs, rfl, rfl⟩, rfl, rfl⟩
        exact .inr ⟨args, by simpa using hargs, rfl⟩
      · rw [if_neg hk]
        exact .mono (.pure _) .inl
    · rintro n _ _ ⟨_, name, _, rfl, ⟨rfl, hname⟩, ⟨rfl, rfl⟩ | ⟨args, hargs, rfl⟩⟩
      · exact ⟨.variableFactor hname, Nat.zero_le n⟩
      · exact ⟨.callFactor (.call hname hargs.1), hargs.2⟩
  · refine .mono (.bind (.advance (by decide)) fun t => .pure _) ?_
    rintro n _ _ ⟨_, t, _, rfl, ⟨rfl, ht⟩, rfl, rfl⟩
    exact ⟨.integer ht, Nat.zero_le n⟩
  · refine .mono (.bind (.advance (by decide)) fun t => .pure _) ?_
    rintro n _ _ ⟨_, t, _, rfl, ⟨rfl, ht⟩, rfl, rfl⟩
    exact ⟨.string ht, Nat.zero_le n⟩
  · refine .mono (.bind (.advance (by decide)) fun t => .pure _) ?_
    rintro n _ _ ⟨_, t, _, rfl, ⟨rfl, ht⟩, rfl, rfl⟩
    exact ⟨.true ht, Nat.zero_le n⟩
  · refine .mono (.bind (.advance (by decide)) fun t => .pure _) ?_
    rintro n _ _ ⟨_, t, _, rfl, ⟨rfl, ht⟩, rfl, rfl⟩
    exact ⟨.false ht, Nat.zero_le n⟩
  · refine .mono (.bind hgroup fun c => .pure _) ?_
    rintro n _ _ ⟨us, c, _, rfl, hc, rfl, rfl⟩
    rwa [List.append_nil]
  · exact .unexpected fun _ t ht => promises_factor ht

theorem recognises_factor :
    ∀ n, Recognises anywhere (factor n : Parser σ Factor) (within .factor) n
  | 0 => recognises_factorOf (recognises_tooDeep promises_arguments)
      (recognises_tooDeep promises_grouped)
  | n + 1 => recognises_factorOf
      (.narrow (recognises_argumentsOf (recognises_factor n)) fun _ => trivial)
      (.narrow (recognises_groupOf (recognises_factor n)) fun _ => trivial)

/-! ## Every layer -/

theorem recognises_term (n : Nat) :
    Recognises anywhere (term n : Parser σ Term) (within .term) n :=
  recognises_termOf (recognises_factor n)

theorem recognises_expression (n : Nat) :
    Recognises anywhere (expression n : Parser σ Expression) (within .expression) n :=
  recognises_expressionOf (recognises_factor n)

theorem recognises_relation (n : Nat) :
    Recognises anywhere (relation n : Parser σ Relation) (within .relation) n :=
  recognises_relationOf (recognises_factor n)

theorem recognises_clause (n : Nat) :
    Recognises anywhere (clause n : Parser σ Clause) (within .clause) n :=
  recognises_clauseOf (recognises_factor n)

theorem recognises_conjunction (n : Nat) :
    Recognises anywhere (conjunction n : Parser σ Conjunction) (within .conjunction) n :=
  recognises_conjunctionOf (recognises_factor n)

theorem recognises_condition (n : Nat) :
    Recognises anywhere (condition n : Parser σ Condition) (within .condition) n :=
  recognises_conditionOf (recognises_factor n)

theorem recognises_arguments :
    ∀ n, Recognises (· = .leftParen) (arguments n : Parser σ (List Expression))
      (within .arguments) n
  | 0 => recognises_tooDeep promises_arguments
  | n + 1 => .narrow (recognises_argumentsOf (recognises_factor n)) fun _ => trivial

end WorkflowScript.Grammar
