import WorkflowScript.Expression.Positions
import WorkflowScript.Expression.Print
import WorkflowScript.Proofs.Expression.Spelling
import WorkflowScript.Proofs.Token.Reading

/-!
# Reading printed expressions

The printed form of a well-spelled tree is read as a sentence of the tree's
nonterminal, and the tree that this sentence stands for is the printed one
up to positions. So every layer puts enough around its operators for them
to be read as what they are.
-/

namespace WorkflowScript

open WorkflowScript.Lexical

/-! ## Operators -/

theorem AddOp.spelling?_kind (op : AddOp) : op.kind.spelling? = some op.symbol := by
  cases op <;> rfl

theorem MulOp.spelling?_kind (op : MulOp) : op.kind.spelling? = some op.symbol := by
  cases op <;> rfl

theorem RelOp.spelling?_kind (op : RelOp) : op.kind.spelling? = some op.symbol := by
  cases op <;> rfl

/-- An operator between spaces. -/
theorem reads_operator {k : TokenKind} {symbol : String} (hk : k.spelling? = some symbol)
    (rest : List Char) : Reads (" " ++ symbol ++ " ") rest (OneToken k symbol) :=
  .padded " " symbol " " rfl hk rfl rfl rest

theorem apart_operator (symbol : String) (more : List Char) :
    isApart ((" " ++ symbol ++ " ").toList ++ more) := by
  simp only [String.toList_append, List.append_assoc]
  rfl

/-! ## Trees up to positions -/

/-- The tokens have a derivation of `a`, up to what `erase` forgets. -/
def Yields {α : Type} (derives : List Token → α → Prop) (erase : α → α) (a : α)
    (ts : List Token) : Prop :=
  ∃ a', derives ts a' ∧ erase a' = erase a

/-- Putting a constructor around a tree keeps it readable. -/
theorem Yields.map {α β : Type} {derives : List Token → α → Prop} {derives' : List Token → β → Prop}
    {erase : α → α} {erase' : β → β} {a : α} {ts : List Token} (f : α → β)
    (hf : ∀ {a}, derives ts a → derives' ts (f a)) (he : ∀ a, erase' (f a) = f (erase a))
    (h : Yields derives erase a ts) : Yields derives' erase' (f a) ts := by
  obtain ⟨a', ha, hea⟩ := h
  exact ⟨f a', hf ha, by rw [he, he, hea]⟩

namespace Grammar.ExpressionSymbol

/-- The tree with every position erased. -/
def erase : (s : ExpressionSymbol) → s.Tree → s.Tree
  | condition, c => c.mapPositions fun _ => .start
  | alternatives, cs => mapConjunctions (fun _ => .start) cs
  | conjunction, c => c.mapPositions fun _ => .start
  | conjuncts, cs => mapClauses (fun _ => .start) cs
  | clause, c => c.mapPositions fun _ => .start
  | relation, r => r.mapPositions fun _ => .start
  | expression, e => e.mapPositions fun _ => .start
  | addends, ts => mapAddends (fun _ => .start) ts
  | term, t => t.mapPositions fun _ => .start
  | multipliers, fs => mapMultipliers (fun _ => .start) fs
  | factor, f => f.mapPositions fun _ => .start
  | call, c => c.mapPositions fun _ => .start
  | arguments, es => mapArguments (fun _ => .start) es
  | moreArguments, es => mapArguments (fun _ => .start) es

/-- The tokens stand for the tree, up to positions. -/
abbrev Yields (s : ExpressionSymbol) : s.Tree → List Token → Prop :=
  WorkflowScript.Yields s.Derives s.erase

end Grammar.ExpressionSymbol

open WorkflowScript.Grammar.ExpressionSymbol

/-! ## Lists start apart -/

theorem apart_alternatives (cs : List Conjunction) {rest : List Char} (h : isApart rest) :
    isApart ((printAlternatives cs).toList ++ rest) := by
  cases cs with
  | nil => exact h
  | cons c cs =>
      simp only [printAlternatives, String.toList_append, List.append_assoc]
      rfl

theorem apart_conjuncts (cs : List Clause) {rest : List Char} (h : isApart rest) :
    isApart ((printConjuncts cs).toList ++ rest) := by
  cases cs with
  | nil => exact h
  | cons c cs =>
      simp only [printConjuncts, String.toList_append, List.append_assoc]
      rfl

theorem apart_addends (ts : List (AddOp × Term)) {rest : List Char} (h : isApart rest) :
    isApart ((printAddends ts).toList ++ rest) := by
  cases ts with
  | nil => exact h
  | cons x ts =>
      simp only [printAddends, String.toList_append, List.append_assoc]
      rfl

theorem apart_multipliers (fs : List (MulOp × Factor)) {rest : List Char} (h : isApart rest) :
    isApart ((printMultipliers fs).toList ++ rest) := by
  cases fs with
  | nil => exact h
  | cons x fs =>
      simp only [printMultipliers, String.toList_append, List.append_assoc]
      rfl

theorem apart_arguments (es : List Expression) {rest : List Char} (h : isApart rest) :
    isApart ((printArguments es).toList ++ rest) := by
  cases es with
  | nil => exact h
  | cons e es =>
      simp only [printArguments, String.toList_append, List.append_assoc]
      rfl

/-! ## Trees are read back -/

mutual

theorem Condition.reads : (c : Condition) → c.WellSpelled → ∀ {more}, isApart more →
    Reads c.print more (condition.Yields c)
  | ⟨first, rest⟩, h, more, hmore => by
      have hfirst := first.reads h.1 (apart_alternatives rest hmore)
      have hrest := reads_alternatives rest h.2 hmore
      rw [Condition.print]
      refine (hfirst.append hrest).mono fun _ hts => ?_
      obtain ⟨_, _, rfl, ⟨t, ht, het⟩, u, hu, heu⟩ := hts
      exact ⟨_, .condition ht hu, by simp_all [erase, Condition.mapPositions]⟩

theorem reads_alternatives : (cs : List Conjunction) → WellSpelledConjunctions cs →
    ∀ {more}, isApart more → Reads (printAlternatives cs) more (alternatives.Yields cs)
  | [], _, more, _ => .mono (.blank rfl) fun _ hts => ⟨[], hts ▸ .noAlternative, rfl⟩
  | c :: cs, h, more, hmore => by
      have hor {rest} : Reads " or " rest (OneToken .kwOr "or") :=
        .padded " " "or" " " rfl rfl rfl rfl rest
      have hfirst := c.reads h.1 (apart_alternatives cs hmore)
      have hrest := reads_alternatives cs h.2 hmore
      rw [printAlternatives]
      refine ((hor.append hfirst).append hrest).mono fun _ hts => ?_
      obtain ⟨_, _, rfl, ⟨_, _, rfl, ⟨p, rfl⟩, t, ht, het⟩, u, hu, heu⟩ := hts
      exact ⟨_, .alternative rfl ht hu, by simp_all [erase, mapConjunctions]⟩

theorem Conjunction.reads : (c : Conjunction) → c.WellSpelled → ∀ {more}, isApart more →
    Reads c.print more (conjunction.Yields c)
  | ⟨first, rest⟩, h, more, hmore => by
      have hfirst := first.reads h.1 (apart_conjuncts rest hmore)
      have hrest := reads_conjuncts rest h.2 hmore
      rw [Conjunction.print]
      refine (hfirst.append hrest).mono fun _ hts => ?_
      obtain ⟨_, _, rfl, ⟨t, ht, het⟩, u, hu, heu⟩ := hts
      exact ⟨_, .conjunction ht hu, by simp_all [erase, Conjunction.mapPositions]⟩

theorem reads_conjuncts : (cs : List Clause) → WellSpelledClauses cs →
    ∀ {more}, isApart more → Reads (printConjuncts cs) more (conjuncts.Yields cs)
  | [], _, more, _ => .mono (.blank rfl) fun _ hts => ⟨[], hts ▸ .noConjunct, rfl⟩
  | c :: cs, h, more, hmore => by
      have hand {rest} : Reads " and " rest (OneToken .kwAnd "and") :=
        .padded " " "and" " " rfl rfl rfl rfl rest
      have hfirst := c.reads h.1 (apart_conjuncts cs hmore)
      have hrest := reads_conjuncts cs h.2 hmore
      rw [printConjuncts]
      refine ((hand.append hfirst).append hrest).mono fun _ hts => ?_
      obtain ⟨_, _, rfl, ⟨_, _, rfl, ⟨p, rfl⟩, t, ht, het⟩, u, hu, heu⟩ := hts
      exact ⟨_, .conjunct rfl ht hu, by simp_all [erase, mapClauses]⟩

theorem Clause.reads : (c : Clause) → c.WellSpelled → ∀ {more}, isApart more →
    Reads c.print more (clause.Yields c)
  | ⟨true, r⟩, h, more, hmore => by
      have hnot {rest} : Reads "not " rest (OneToken .kwNot "not") :=
        .padded "" "not" " " rfl rfl rfl rfl rest
      have hrelation := r.reads h hmore
      rw [Clause.print]
      refine (hnot.append hrelation).mono fun _ hts => ?_
      obtain ⟨_, _, rfl, ⟨p, rfl⟩, t, ht, het⟩ := hts
      exact ⟨_, .negation rfl ht, by simp_all [erase, Clause.mapPositions]⟩
  | ⟨false, r⟩, h, more, hmore => by
      have hrelation := r.reads h hmore
      rw [Clause.print]
      exact hrelation.mono fun _ => .map (Clause.mk false) .clause fun _ => rfl

theorem Relation.reads : (r : Relation) → r.WellSpelled → ∀ {more}, isApart more →
    Reads r.print more (relation.Yields r)
  | ⟨left, none⟩, h, more, hmore => by
      have hleft := left.reads h hmore
      rw [Relation.print]
      exact hleft.mono fun _ => .map (Relation.mk · none) .relation fun _ => rfl
  | ⟨left, some (op, right)⟩, h, more, hmore => by
      have hleft := left.reads h.1 (apart_operator op.symbol (right.print.toList ++ more))
      have hright := right.reads h.2 hmore
      have hop := reads_operator op.spelling?_kind (right.print.toList ++ more)
      have hprint : Relation.print ⟨left, some (op, right)⟩ =
          left.print ++ (" " ++ op.symbol ++ " ") ++ right.print := by
        simp only [Relation.print, String.append_assoc]
      rw [hprint]
      refine ((hleft.append hop).append hright).mono fun _ hts => ?_
      obtain ⟨_, _, rfl, ⟨_, _, rfl, ⟨t, ht, het⟩, p, rfl⟩, u, hu, heu⟩ := hts
      refine ⟨⟨t, some (op, u)⟩, ?_, by simp_all [erase, Relation.mapPositions]⟩
      rw [List.append_assoc]
      exact .comparison ht rfl hu

theorem Expression.reads : (e : Expression) → e.WellSpelled → ∀ {more}, isApart more →
    Reads e.print more (expression.Yields e)
  | ⟨first, rest⟩, h, more, hmore => by
      have hfirst := first.reads h.1 (apart_addends rest hmore)
      have hrest := reads_addends rest h.2 hmore
      rw [Expression.print]
      refine (hfirst.append hrest).mono fun _ hts => ?_
      obtain ⟨_, _, rfl, ⟨t, ht, het⟩, u, hu, heu⟩ := hts
      exact ⟨_, .expression ht hu, by simp_all [erase, Expression.mapPositions]⟩

theorem reads_addends : (ts : List (AddOp × Term)) → WellSpelledAddends ts →
    ∀ {more}, isApart more → Reads (printAddends ts) more (addends.Yields ts)
  | [], _, more, _ => .mono (.blank rfl) fun _ hts => ⟨[], hts ▸ .noAddend, rfl⟩
  | (op, t) :: ts, h, more, hmore => by
      have hop := reads_operator op.spelling?_kind
        (t.print.toList ++ ((printAddends ts).toList ++ more))
      have hfirst := t.reads h.1 (apart_addends ts hmore)
      have hrest := reads_addends ts h.2 hmore
      rw [printAddends]
      refine ((hop.append hfirst).append hrest).mono fun _ hts => ?_
      obtain ⟨_, _, rfl, ⟨_, _, rfl, ⟨p, rfl⟩, t, ht, het⟩, u, hu, heu⟩ := hts
      exact ⟨_, .addend rfl ht hu, by simp_all [erase, mapAddends]⟩

theorem Term.reads : (t : Term) → t.WellSpelled → ∀ {more}, isApart more →
    Reads t.print more (term.Yields t)
  | ⟨first, rest⟩, h, more, hmore => by
      have hfirst := first.reads h.1 (apart_multipliers rest hmore)
      have hrest := reads_multipliers rest h.2 hmore
      rw [Term.print]
      refine (hfirst.append hrest).mono fun _ hts => ?_
      obtain ⟨_, _, rfl, ⟨t, ht, het⟩, u, hu, heu⟩ := hts
      exact ⟨_, .term ht hu, by simp_all [erase, Term.mapPositions]⟩

theorem reads_multipliers : (fs : List (MulOp × Factor)) → WellSpelledMultipliers fs →
    ∀ {more}, isApart more → Reads (printMultipliers fs) more (multipliers.Yields fs)
  | [], _, more, _ => .mono (.blank rfl) fun _ hts => ⟨[], hts ▸ .noMultiplier, rfl⟩
  | (op, f) :: fs, h, more, hmore => by
      have hop := reads_operator op.spelling?_kind
        (f.print.toList ++ ((printMultipliers fs).toList ++ more))
      have hfirst := f.reads h.1 (apart_multipliers fs hmore)
      have hrest := reads_multipliers fs h.2 hmore
      rw [printMultipliers]
      refine ((hop.append hfirst).append hrest).mono fun _ hts => ?_
      obtain ⟨_, _, rfl, ⟨_, _, rfl, ⟨p, rfl⟩, t, ht, het⟩, u, hu, heu⟩ := hts
      exact ⟨_, .multiplier rfl ht hu, by simp_all [erase, mapMultipliers]⟩

theorem Factor.reads : (f : Factor) → f.WellSpelled → ∀ {more}, isApart more →
    Reads f.print more (factor.Yields f)
  | .variable name position, h, more, hmore => by
      rw [Factor.print]
      refine (Reads.name h hmore).mono fun _ hts => ?_
      obtain ⟨p, rfl⟩ := hts
      exact ⟨_, .variableFactor rfl, rfl⟩
  | .call c, h, more, hmore => by
      have hcall := c.reads h hmore
      rw [Factor.print]
      exact hcall.mono fun _ => .map Factor.call .callFactor fun _ => rfl
  | .integer text, h, more, hmore => by
      rw [Factor.print]
      refine (Reads.token (k := .integer) h (by decide) (by decide) hmore).mono fun _ hts => ?_
      obtain ⟨p, rfl⟩ := hts
      exact ⟨_, .integer rfl, rfl⟩
  | .string text, h, more, hmore => by
      rw [Factor.print]
      refine (Reads.token (k := .string) h (by decide) (by decide) hmore).mono fun _ hts => ?_
      obtain ⟨p, rfl⟩ := hts
      exact ⟨_, .string rfl, rfl⟩
  | .bool true, _, more, hmore => by
      have hword := Reads.spelled (k := .kwTrue) "" "true" rfl rfl rfl hmore
      rw [Factor.print]
      refine hword.mono fun _ hts => ?_
      obtain ⟨p, rfl⟩ := hts
      exact ⟨_, .true rfl, rfl⟩
  | .bool false, _, more, hmore => by
      have hword := Reads.spelled (k := .kwFalse) "" "false" rfl rfl rfl hmore
      rw [Factor.print]
      refine hword.mono fun _ hts => ?_
      obtain ⟨p, rfl⟩ := hts
      exact ⟨_, .false rfl, rfl⟩
  | .group inner, h, more, hmore => by
      have hclose : isApart (")".toList ++ more) := rfl
      have hinner := inner.reads h hclose
      have hrp := Reads.spelled (k := .rightParen) "" ")" rfl rfl rfl hmore
      rw [Factor.print]
      refine (((Reads.leftParen _).append hinner).append hrp).mono fun _ hts => ?_
      obtain ⟨_, _, rfl, ⟨_, _, rfl, ⟨p, rfl⟩, t, ht, het⟩, q, rfl⟩ := hts
      exact ⟨_, .group rfl ht rfl, by simp_all [erase, Factor.mapPositions]⟩

theorem Call.reads : (c : Call) → c.WellSpelled → ∀ {more}, isApart more →
    Reads c.print more (call.Yields c)
  | ⟨name, [], position⟩, h, more, hmore => by
      have hopen : isApart ("()".toList ++ more) := rfl
      have hname := Reads.name h.1 hopen
      have hlp := Reads.leftParen (")".toList ++ more)
      have hrp := Reads.spelled (k := .rightParen) "" ")" rfl rfl rfl hmore
      rw [Call.print]
      refine (hname.append (hlp.append hrp)).mono fun _ hts => ?_
      obtain ⟨_, _, rfl, ⟨p, rfl⟩, _, _, rfl, ⟨q, rfl⟩, r, rfl⟩ := hts
      exact ⟨_, .call rfl (.noArguments rfl rfl), rfl⟩
  | ⟨name, first :: rest, position⟩, h, more, hmore => by
      have hclose : isApart (")".toList ++ more) := rfl
      have hopen : isApart ("(".toList ++ (first.print.toList ++
        ((printArguments rest).toList ++ (")".toList ++ more)))) := rfl
      have hname := Reads.name h.1 hopen
      have hfirst := first.reads h.2.1 (apart_arguments rest hclose)
      have hrest := reads_arguments rest h.2.2 hclose
      have hrp := Reads.spelled (k := .rightParen) "" ")" rfl rfl rfl hmore
      rw [Call.print]
      refine ((((hname.append (.leftParen _)).append hfirst).append hrest).append hrp).mono fun _ hts => ?_
      obtain ⟨_, _, rfl, ⟨_, _, rfl, ⟨_, _, rfl, ⟨_, _, rfl, ⟨p, rfl⟩, q, rfl⟩, t, ht, het⟩,
        u, hu, heu⟩, r, rfl⟩ := hts
      exact ⟨_, .call rfl (.arguments rfl ht hu rfl),
        by simp_all [erase, Call.mapPositions, mapArguments]⟩

theorem reads_arguments : (es : List Expression) → WellSpelledArguments es →
    ∀ {more}, isApart more → Reads (printArguments es) more (moreArguments.Yields es)
  | [], _, more, _ => .mono (.blank rfl) fun _ hts => ⟨[], hts ▸ .noMoreArguments, rfl⟩
  | e :: es, h, more, hmore => by
      have hcomma {rest} : Reads ", " rest (OneToken .comma ",") :=
        .padded "" "," " " rfl rfl rfl rfl rest
      have hfirst := e.reads h.1 (apart_arguments es hmore)
      have hrest := reads_arguments es h.2 hmore
      rw [printArguments]
      refine ((hcomma.append hfirst).append hrest).mono fun _ hts => ?_
      obtain ⟨_, _, rfl, ⟨_, _, rfl, ⟨p, rfl⟩, t, ht, het⟩, u, hu, heu⟩ := hts
      exact ⟨_, .moreArguments rfl ht hu, by simp_all [erase, mapArguments]⟩

end

end WorkflowScript
