import Mathlib.Data.List.Induction
import WorkflowScript.Expression.Positions
import WorkflowScript.Proofs.Target.Condition

/-!
# Target trees tell conditions apart

A target tree keeps its brackets, and they are enough to find every layer of
the condition again. A layer of operands is a spine of operators of one rank
on a left end of another rank, so the tree shows where it starts. Brackets
around a sum hold operators of rank 3, around a product of rank 2, and around
a group neither, since a sum or a product in a group has brackets of its own.
So two conditions with one target tree are the same up to positions
(`Condition.target_injective`), and likewise for every layer.
-/

namespace WorkflowScript

open WorkflowScript.Target (Tree Operator)

/-! ## Spines -/

namespace Target

/-- The operators and their right operands, behind a left end. -/
def spine (left : Tree) (xs : List (Operator × Tree)) : Tree :=
  xs.foldl (fun t x => .binary x.1 t x.2) left

theorem spine_append (left : Tree) (xs ys : List (Operator × Tree)) :
    spine left (xs ++ ys) = spine (spine left xs) ys :=
  List.foldl_append

/-- The operator of the last operand is the root. -/
theorem spine_concat (left : Tree) (xs : List (Operator × Tree)) (x : Operator × Tree) :
    spine left (xs ++ [x]) = .binary x.1 (spine left xs) x.2 :=
  spine_append left xs [x]

/-- The root of a spine is its left end or one of its operators. -/
theorem rank_spine (left : Tree) {xs : List (Operator × Tree)} {rank : Nat}
    (hxs : ∀ x ∈ xs, x.1.rank = rank) :
    xs = [] ∧ spine left xs = left ∨ (spine left xs).rank = rank := by
  induction xs using List.reverseRecOn with
  | nil => exact .inl ⟨rfl, rfl⟩
  | append_singleton xs x =>
      rw [spine_concat]
      exact .inr (hxs x (by simp))

theorem rank_spine_of_ne_nil (left : Tree) {xs : List (Operator × Tree)} {rank : Nat}
    (hxs : ∀ x ∈ xs, x.1.rank = rank) (hne : xs ≠ []) : (spine left xs).rank = rank :=
  (rank_spine left hxs).resolve_left fun h => hne h.1

/-- A spine of one rank shows its left end, if that is of another rank, and
all its operands. -/
theorem spine_injective (rank : Nat) {left left' : Tree} {xs xs' : List (Operator × Tree)}
    (hleft : left.rank ≠ rank) (hleft' : left'.rank ≠ rank)
    (hxs : ∀ x ∈ xs, x.1.rank = rank) (hxs' : ∀ x ∈ xs', x.1.rank = rank)
    (h : spine left xs = spine left' xs') : left = left' ∧ xs = xs' := by
  induction xs using List.reverseRecOn generalizing xs' with
  | nil =>
      obtain ⟨rfl, hend⟩ | hrank := rank_spine left' hxs'
      · exact ⟨h.trans hend, rfl⟩
      · exact absurd (show (spine left []).rank = rank from h ▸ hrank) hleft
  | append_singleton xs x ih =>
      rw [spine_concat] at h
      cases xs' using List.reverseRecOn with
      | nil =>
          have hroot : (spine left' []).rank = rank := h ▸ hxs x (by simp)
          exact absurd hroot hleft'
      | append_singleton xs' x' =>
          rw [spine_concat] at h
          obtain ⟨hop, hspine, hright⟩ := Tree.binary.inj h
          have hinit := ih (fun y hy => hxs y (by simp [hy])) (fun y hy => hxs' y (by simp [hy]))
            hspine
          rw [hinit.2, Prod.ext hop hright]
          exact ⟨hinit.1, rfl⟩

end Target

open WorkflowScript.Target (spine spine_injective)

/-! ## Layers as spines -/

theorem AddOp.rank_operator (op : AddOp) : op.operator.rank = 3 := by
  cases op <;> rfl

theorem MulOp.rank_operator (op : MulOp) : op.operator.rank = 2 := by
  cases op <;> rfl

theorem RelOp.rank_operator (op : RelOp) : op.operator.rank = 4 ∨ op.operator.rank = 5 := by
  cases op <;> decide

theorem AddOp.operator_injective {op op' : AddOp} (h : op.operator = op'.operator) : op = op' := by
  cases op <;> cases op' <;> first | rfl | cases h

theorem MulOp.operator_injective {op op' : MulOp} (h : op.operator = op'.operator) : op = op' := by
  cases op <;> cases op' <;> first | rfl | cases h

theorem RelOp.operator_injective {op op' : RelOp} (h : op.operator = op'.operator) : op = op' := by
  cases op <;> cases op' <;> first | rfl | cases h

def Conjunction.asAlternative (c : Conjunction) : Operator × Tree := (.or, c.target)

def Clause.asConjunct (c : Clause) : Operator × Tree := (.and, c.target)

def asAddend (x : AddOp × Term) : Operator × Tree := (x.1.operator, x.2.target)

def asMultiplier (x : MulOp × Factor) : Operator × Tree := (x.1.operator, x.2.target)

theorem targetOfAlternatives_eq_spine (left : Tree) (cs : List Conjunction) :
    targetOfAlternatives left cs = spine left (cs.map Conjunction.asAlternative) := by
  induction cs generalizing left with
  | nil => rfl
  | cons c cs ih => exact ih _

theorem targetOfConjuncts_eq_spine (left : Tree) (cs : List Clause) :
    targetOfConjuncts left cs = spine left (cs.map Clause.asConjunct) := by
  induction cs generalizing left with
  | nil => rfl
  | cons c cs ih => exact ih _

theorem targetOfAddends_eq_spine (left : Tree) (ts : List (AddOp × Term)) :
    targetOfAddends left ts = spine left (ts.map asAddend) := by
  induction ts generalizing left with
  | nil => rfl
  | cons t ts ih => exact ih _

theorem targetOfMultipliers_eq_spine (left : Tree) (fs : List (MulOp × Factor)) :
    targetOfMultipliers left fs = spine left (fs.map asMultiplier) := by
  induction fs generalizing left with
  | nil => rfl
  | cons f fs ih => exact ih _

theorem rank_alternatives (cs : List Conjunction) :
    ∀ x ∈ cs.map Conjunction.asAlternative, x.1.rank = 7 := by
  simp [Conjunction.asAlternative, Operator.rank]

theorem rank_conjuncts (cs : List Clause) : ∀ x ∈ cs.map Clause.asConjunct, x.1.rank = 6 := by
  simp [Clause.asConjunct, Operator.rank]

theorem rank_addends (ts : List (AddOp × Term)) : ∀ x ∈ ts.map asAddend, x.1.rank = 3 := by
  rintro _ hx
  obtain ⟨⟨op, t⟩, -, rfl⟩ := List.mem_map.mp hx
  exact op.rank_operator

theorem rank_multipliers (fs : List (MulOp × Factor)) :
    ∀ x ∈ fs.map asMultiplier, x.1.rank = 2 := by
  rintro _ hx
  obtain ⟨⟨op, f⟩, -, rfl⟩ := List.mem_map.mp hx
  exact op.rank_operator

/-! ## Roots -/

theorem Factor.rank_target : (f : Factor) → f.target.rank = 0
  | .variable _ _ | .integer _ | .string _ | .bool _ | .group _ => rfl
  | .call ⟨_, _, _⟩ => rfl

theorem Term.rank_target : (t : Term) → t.target.rank = 0
  | ⟨first, []⟩ => first.rank_target
  | ⟨_, _ :: _⟩ => rfl

theorem Expression.rank_target : (e : Expression) → e.target.rank = 0
  | ⟨first, []⟩ => first.rank_target
  | ⟨_, _ :: _⟩ => rfl

namespace Target

/-- No operator looser than the rank is at the root, and none of arithmetic. -/
def Tree.Logical (t : Tree) (rank : Nat) : Prop := t.rank ≤ 1 ∨ 4 ≤ t.rank ∧ t.rank ≤ rank

theorem Tree.Logical.rank_ne {t : Tree} {rank n : Nat} (h : t.Logical rank)
    (hn : 1 < n ∧ (n < 4 ∨ rank < n)) : t.rank ≠ n := by
  unfold Logical at h
  omega

theorem Tree.Logical.spine {left : Tree} {xs : List (Operator × Tree)} {rank : Nat}
    (hleft : left.Logical rank) (hxs : ∀ x ∈ xs, x.1.rank = rank + 1) (hrank : 3 ≤ rank) :
    (Target.spine left xs).Logical (rank + 1) := by
  obtain ⟨-, hspine⟩ | hspine := rank_spine left hxs
  all_goals
    unfold Logical at hleft ⊢
    rw [hspine]
    omega

end Target

theorem Relation.rank_target : (r : Relation) →
    r.target.rank = 0 ∨ 4 ≤ r.target.rank ∧ r.target.rank ≤ 5
  | ⟨left, none⟩ => .inl left.rank_target
  | ⟨_, some (op, _)⟩ => by
      refine .inr ?_
      obtain h | h := op.rank_operator <;> simp [target, Tree.rank, h]

theorem Relation.target_ne_not (r : Relation) (t : Tree) : r.target ≠ .not t := by
  intro h
  have hrank := r.rank_target
  rw [h, Tree.rank] at hrank
  omega

theorem Expression.target_ne_binary (e : Expression) (op : RelOp) (left right : Tree) :
    e.target ≠ .binary op.operator left right := by
  intro h
  have hrank := e.rank_target
  rw [h, Tree.rank] at hrank
  have hop := op.rank_operator
  omega

theorem Clause.logical_target : (c : Clause) → c.target.Logical 5
  | ⟨true, _⟩ => .inl (Nat.le_refl 1)
  | ⟨false, relation⟩ => by
      have hrank := relation.rank_target
      exact hrank.imp_left fun h => Nat.le_trans (Nat.le_of_eq h) (Nat.zero_le 1)

theorem Conjunction.logical_target : (c : Conjunction) → c.target.Logical 6
  | ⟨first, rest⟩ => by
      rw [target, targetOfConjuncts_eq_spine]
      exact first.logical_target.spine (rank_conjuncts rest) (by decide)

theorem Condition.logical_target : (c : Condition) → c.target.Logical 7
  | ⟨first, rest⟩ => by
      rw [target, targetOfAlternatives_eq_spine]
      exact first.logical_target.spine (rank_alternatives rest) (by decide)

/-- Brackets around a single factor are those of a group. -/
theorem Factor.target_ne_product (f : Factor) (left : Tree) (x : MulOp × Factor)
    (rest : List (MulOp × Factor)) :
    f.target ≠ .paren (targetOfMultipliers left (x :: rest)) := by
  intro h
  have hrank := Target.rank_spine_of_ne_nil left (rank_multipliers (x :: rest)) (by simp)
  rw [targetOfMultipliers_eq_spine] at h
  match f with
  | .group inner =>
      rw [← Tree.paren.inj h] at hrank
      exact inner.logical_target.rank_ne (by decide) hrank
  | .call ⟨_, _, _⟩ => exact nomatch h

/-- Brackets around a single term are those of a product or of a group. -/
theorem Term.target_ne_sum (t : Term) (left : Tree) (x : AddOp × Term)
    (rest : List (AddOp × Term)) : t.target ≠ .paren (targetOfAddends left (x :: rest)) := by
  intro h
  have hrank := Target.rank_spine_of_ne_nil left (rank_addends (x :: rest)) (by simp)
  rw [targetOfAddends_eq_spine] at h
  match t with
  | ⟨.group inner, []⟩ =>
      rw [← Tree.paren.inj h] at hrank
      exact inner.logical_target.rank_ne (by decide) hrank
  | ⟨.call ⟨_, _, _⟩, []⟩ => exact nomatch h
  | ⟨first, y :: ys⟩ =>
      have hproduct := Target.rank_spine_of_ne_nil first.target (rank_multipliers (y :: ys))
        (by simp)
      rw [← targetOfMultipliers_eq_spine, Tree.paren.inj h, hrank] at hproduct
      cases hproduct

/-! ## Layers from trees -/

mutual

/-- The target tree of a condition shows the condition, up to positions. -/
theorem Condition.target_injective : (c c' : Condition) → c.target = c'.target →
    c.mapPositions (fun _ => .start) = c'.mapPositions fun _ => .start
  | ⟨first, rest⟩, ⟨first', rest'⟩, h => by
      simp only [Condition.target, targetOfAlternatives_eq_spine] at h
      obtain ⟨hleft, hright⟩ := spine_injective 7 (first.logical_target.rank_ne (by decide))
        (first'.logical_target.rank_ne (by decide)) (rank_alternatives rest)
        (rank_alternatives rest') h
      rw [Condition.mapPositions, Condition.mapPositions, first.target_injective first' hleft,
        alternatives_injective rest rest' hright]

theorem alternatives_injective : (cs cs' : List Conjunction) →
    cs.map Conjunction.asAlternative = cs'.map Conjunction.asAlternative →
    mapConjunctions (fun _ => .start) cs = mapConjunctions (fun _ => .start) cs'
  | [], [], _ => rfl
  | [], _ :: _, h | _ :: _, [], h => nomatch h
  | c :: cs, c' :: cs', h => by
      obtain ⟨hc, hcs⟩ := List.cons.inj h
      rw [mapConjunctions, mapConjunctions, c.target_injective c' (Prod.mk.inj hc).2,
        alternatives_injective cs cs' hcs]

theorem Conjunction.target_injective : (c c' : Conjunction) → c.target = c'.target →
    c.mapPositions (fun _ => .start) = c'.mapPositions fun _ => .start
  | ⟨first, rest⟩, ⟨first', rest'⟩, h => by
      simp only [Conjunction.target, targetOfConjuncts_eq_spine] at h
      obtain ⟨hleft, hright⟩ := spine_injective 6 (first.logical_target.rank_ne (by decide))
        (first'.logical_target.rank_ne (by decide)) (rank_conjuncts rest) (rank_conjuncts rest') h
      rw [Conjunction.mapPositions, Conjunction.mapPositions, first.target_injective first' hleft,
        conjuncts_injective rest rest' hright]

theorem conjuncts_injective : (cs cs' : List Clause) →
    cs.map Clause.asConjunct = cs'.map Clause.asConjunct →
    mapClauses (fun _ => .start) cs = mapClauses (fun _ => .start) cs'
  | [], [], _ => rfl
  | [], _ :: _, h | _ :: _, [], h => nomatch h
  | c :: cs, c' :: cs', h => by
      obtain ⟨hc, hcs⟩ := List.cons.inj h
      rw [mapClauses, mapClauses, c.target_injective c' (Prod.mk.inj hc).2,
        conjuncts_injective cs cs' hcs]

/-- A negation is the only root of rank 1. -/
theorem Clause.target_injective : (c c' : Clause) → c.target = c'.target →
    c.mapPositions (fun _ => .start) = c'.mapPositions fun _ => .start
  | ⟨true, r⟩, ⟨true, r'⟩, h => by
      have hr := Tree.paren.inj (Tree.not.inj h)
      rw [Clause.mapPositions, Clause.mapPositions, r.target_injective r' hr]
  | ⟨true, r⟩, ⟨false, r'⟩, h => absurd h.symm (r'.target_ne_not _)
  | ⟨false, r⟩, ⟨true, r'⟩, h => absurd h (r.target_ne_not _)
  | ⟨false, r⟩, ⟨false, r'⟩, h => by
      rw [Clause.mapPositions, Clause.mapPositions, r.target_injective r' h]

theorem Relation.target_injective : (r r' : Relation) → r.target = r'.target →
    r.mapPositions (fun _ => .start) = r'.mapPositions fun _ => .start
  | ⟨left, none⟩, ⟨left', none⟩, h => by
      rw [Relation.mapPositions, Relation.mapPositions, left.target_injective left' h]
  | ⟨left, none⟩, ⟨_, some (op, _)⟩, h => absurd h (left.target_ne_binary op _ _)
  | ⟨_, some (op, _)⟩, ⟨left, none⟩, h => absurd h.symm (left.target_ne_binary op _ _)
  | ⟨left, some (op, right)⟩, ⟨left', some (op', right')⟩, h => by
      obtain ⟨hop, hleft, hright⟩ := Tree.binary.inj h
      rw [Relation.mapPositions, Relation.mapPositions, RelOp.operator_injective hop,
        left.target_injective left' hleft, right.target_injective right' hright]

theorem Expression.target_injective : (e e' : Expression) → e.target = e'.target →
    e.mapPositions (fun _ => .start) = e'.mapPositions fun _ => .start
  | ⟨first, []⟩, ⟨first', []⟩, h => by
      rw [Expression.mapPositions, Expression.mapPositions, first.target_injective first' h]
  | ⟨first, []⟩, ⟨_, x :: rest⟩, h => absurd h (first.target_ne_sum _ x rest)
  | ⟨_, x :: rest⟩, ⟨first, []⟩, h => absurd h.symm (first.target_ne_sum _ x rest)
  | ⟨first, x :: rest⟩, ⟨first', x' :: rest'⟩, h => by
      have hspine := Tree.paren.inj h
      simp only [targetOfAddends_eq_spine] at hspine
      obtain ⟨hleft, hright⟩ := spine_injective 3 (by simp [Term.rank_target])
        (by simp [Term.rank_target]) (rank_addends _) (rank_addends _) hspine
      rw [Expression.mapPositions, Expression.mapPositions, first.target_injective first' hleft,
        addends_injective (x :: rest) (x' :: rest') hright]

theorem addends_injective : (ts ts' : List (AddOp × Term)) →
    ts.map asAddend = ts'.map asAddend →
    mapAddends (fun _ => .start) ts = mapAddends (fun _ => .start) ts'
  | [], [], _ => rfl
  | [], _ :: _, h | _ :: _, [], h => nomatch h
  | (op, t) :: ts, (op', t') :: ts', h => by
      obtain ⟨ht, hts⟩ := List.cons.inj h
      obtain ⟨hop, ht⟩ : op.operator = op'.operator ∧ t.target = t'.target := Prod.mk.inj ht
      rw [mapAddends, mapAddends, AddOp.operator_injective hop, t.target_injective t' ht,
        addends_injective ts ts' hts]

theorem Term.target_injective : (t t' : Term) → t.target = t'.target →
    t.mapPositions (fun _ => .start) = t'.mapPositions fun _ => .start
  | ⟨first, []⟩, ⟨first', []⟩, h => by
      rw [Term.mapPositions, Term.mapPositions, first.target_injective first' h]
  | ⟨first, []⟩, ⟨_, x :: rest⟩, h => absurd h (first.target_ne_product _ x rest)
  | ⟨_, x :: rest⟩, ⟨first, []⟩, h => absurd h.symm (first.target_ne_product _ x rest)
  | ⟨first, x :: rest⟩, ⟨first', x' :: rest'⟩, h => by
      have hspine := Tree.paren.inj h
      simp only [targetOfMultipliers_eq_spine] at hspine
      obtain ⟨hleft, hright⟩ := spine_injective 2 (by simp [Factor.rank_target])
        (by simp [Factor.rank_target]) (rank_multipliers _) (rank_multipliers _) hspine
      rw [Term.mapPositions, Term.mapPositions, first.target_injective first' hleft,
        multipliers_injective (x :: rest) (x' :: rest') hright]

theorem multipliers_injective : (fs fs' : List (MulOp × Factor)) →
    fs.map asMultiplier = fs'.map asMultiplier →
    mapMultipliers (fun _ => .start) fs = mapMultipliers (fun _ => .start) fs'
  | [], [], _ => rfl
  | [], _ :: _, h | _ :: _, [], h => nomatch h
  | (op, f) :: fs, (op', f') :: fs', h => by
      obtain ⟨hf, hfs⟩ := List.cons.inj h
      obtain ⟨hop, hf⟩ : op.operator = op'.operator ∧ f.target = f'.target := Prod.mk.inj hf
      rw [mapMultipliers, mapMultipliers, MulOp.operator_injective hop, f.target_injective f' hf,
        multipliers_injective fs fs' hfs]

theorem Factor.target_injective : (f f' : Factor) → f.target = f'.target →
    f.mapPositions (fun _ => .start) = f'.mapPositions fun _ => .start
  | .variable _ _, .variable _ _, h => by
      rw [Factor.mapPositions, Factor.mapPositions, Tree.name.inj h]
  | .call c, .call c', h => congrArg Factor.call (c.target_injective c' h)
  | .integer _, .integer _, h => congrArg Factor.integer (Tree.number.inj h)
  | .string _, .string _, h => congrArg Factor.string (Tree.string.inj h)
  | .bool _, .bool _, h => congrArg Factor.bool (Tree.bool.inj h)
  | .group c, .group c', h => congrArg Factor.group (c.target_injective c' (Tree.paren.inj h))
  | .call ⟨_, _, _⟩, .variable _ _, h | .call ⟨_, _, _⟩, .integer _, h
  | .call ⟨_, _, _⟩, .string _, h | .call ⟨_, _, _⟩, .bool _, h
  | .call ⟨_, _, _⟩, .group _, h | .variable _ _, .call ⟨_, _, _⟩, h
  | .integer _, .call ⟨_, _, _⟩, h | .string _, .call ⟨_, _, _⟩, h
  | .bool _, .call ⟨_, _, _⟩, h | .group _, .call ⟨_, _, _⟩, h => nomatch h

theorem Call.target_injective : (c c' : Call) → c.target = c'.target →
    c.mapPositions (fun _ => .start) = c'.mapPositions fun _ => .start
  | ⟨name, args, _⟩, ⟨name', args', _⟩, h => by
      obtain ⟨hname, hargs⟩ := Tree.call.inj h
      rw [Call.mapPositions, Call.mapPositions, Tree.name.inj hname,
        arguments_injective args args' hargs]

theorem arguments_injective : (es es' : List Expression) →
    targetOfArguments es = targetOfArguments es' →
    mapArguments (fun _ => .start) es = mapArguments (fun _ => .start) es'
  | [], [], _ => rfl
  | [], _ :: _, h | _ :: _, [], h => nomatch h
  | e :: es, e' :: es', h => by
      obtain ⟨he, hes⟩ := List.cons.inj h
      rw [mapArguments, mapArguments, e.target_injective e' he, arguments_injective es es' hes]

end

end WorkflowScript
