import WorkflowScript.Proofs.Transform.Extension
import WorkflowScript.Proofs.Transform.Identity
import WorkflowScript.Transform.Rules

/-!
# Transformations on a budget end

A visit goes on into whatever the transformer answers, which may be larger
than what it was offered, so the size of the tree alone does not go down. It
goes down together with the budget: an answer that differs from its node
lowers the budget, and one that does not leaves the node, whose parts nest
less deeply. The pair of the budget left and the nesting ahead gets smaller
in lexicographic order at each turn of the recursion (`Precedes`), once for
factors and once for statements.

A visit `Finishes` on a budget if it does from every state that has no more
than it, and leaves no more than it. In this form the budget stays the same
over a sequence, and only an offer may lower it.
-/

namespace WorkflowScript

/-! ## Budgets and sizes -/

/-- Less budget, or as much of it and a smaller size. -/
def Precedes : Nat × Nat → Nat × Nat → Prop := Prod.Lex (· < ·) (· < ·)

namespace Precedes

variable {b n k : Nat} {q : Nat × Nat}

theorem iff {p : Nat × Nat} : Precedes p q ↔ p.1 < q.1 ∨ p.1 = q.1 ∧ p.2 < q.2 := Prod.lex_def

theorem of_lt (h : b < n) (k l : Nat) : Precedes (b, k) (n, l) := .left _ _ h

theorem mono (h : Precedes (b, n) q) (hk : k ≤ n) : Precedes (b, k) q := by
  rw [iff] at h ⊢
  omega

/-- One level further in there is room for one level less. -/
theorem inside {c : Nat} (h : Precedes (b, k + 1) (c, n + 1)) : Precedes (b, k) (c, n) := by
  rw [iff] at h ⊢
  omega

/-- On less than the budget of something that precedes, any size does. -/
theorem lower (h : Precedes (b, n) q) {b' : Nat} (hb : b' < b) (k : Nat) :
    Precedes (b', k) q := by
  rw [iff] at h ⊢
  omega

theorem of_mem {α : Type} {size : α → Nat} {total : List α → Nat}
    (hcons : ∀ x xs, total (x :: xs) = max (size x) (total xs)) {xs : List α}
    (h : Precedes (b, total xs) q) {x : α} (hx : x ∈ xs) : Precedes (b, size x) q :=
  h.mono (Nat.le_of_lt_succ (lt_of_mem_of_max_lt hcons (Nat.lt_succ_self _) x hx))

end Precedes

/-! ## Visits that finish -/

/-- With fuel enough, the visit comes to an end from every state that has the
budget, and leaves no more than it. -/
def Finishes {σ α : Type} (budget : σ → Nat) (b : Nat) (x : Nat → Visit σ α) : Prop :=
  ∀ s, budget s ≤ b →
    ∃ fuel v, (∀ n, fuel ≤ n → x n s = some v) ∧ budget v.state ≤ b

namespace Finishes

open Visit (bind_eq_some)

variable {σ α β : Type} {budget : σ → Nat} {b : Nat}

theorem pure (a : α) : Finishes budget b fun _ => (Pure.pure a : Visit σ α) :=
  fun s hs => ⟨0, ⟨a, "", s⟩, fun _ _ => rfl, hs⟩

theorem bind {x : Nat → Visit σ α} {f : Nat → α → Visit σ β} (hx : Finishes budget b x)
    (hf : ∀ a, Finishes budget b fun n => f n a) : Finishes budget b fun n => x n >>= f n := by
  intro s hs
  obtain ⟨m, v, hv, hvb⟩ := hx s hs
  obtain ⟨m', w, hw, hwb⟩ := hf v.value v.state hvb
  refine ⟨max m m', { w with text := v.text ++ w.text }, fun n hn => ?_, hwb⟩
  obtain ⟨hm, hm'⟩ := Nat.max_le.mp hn
  exact bind_eq_some.mpr ⟨v, w, hv n hm, hw n hm', rfl⟩

theorem emit (text : String) : Finishes budget b fun _ => (Visit.emit text : Visit σ Unit) :=
  fun s hs => ⟨0, ⟨(), text, s⟩, fun _ _ => rfl, hs⟩

theorem map {x : Nat → Visit σ α} (f : α → β) (hx : Finishes budget b x) :
    Finishes budget b fun n => f <$> x n :=
  bind hx fun a => pure (f a)

/-- The last unit of fuel may go into the turn itself. -/
theorem turn {x : Nat → Visit σ α} (hx : Finishes budget b fun n => x (n + 1)) :
    Finishes budget b x := by
  intro s hs
  obtain ⟨m, v, hv, hvb⟩ := hx s hs
  refine ⟨m + 1, v, fun n hn => ?_, hvb⟩
  obtain ⟨n, rfl⟩ := Nat.exists_eq_add_of_le' (Nat.le_trans (Nat.le_add_left 1 m) hn)
  exact hv n (Nat.le_of_succ_le_succ hn)

/-- An offer keeps the node or lowers the budget, so that the answer precedes
whatever the node did. -/
theorem offer {t : Transformer σ} (ht : t.Budgeted budget) {h : Hook} {size : h.Node → Nat}
    {node : h.Node} {q : Nat × Nat} {f : Nat → h.Node → Visit σ β}
    (hnode : Precedes (b, size node) q)
    (hf : ∀ b node, Precedes (b, size node) q → Finishes budget b fun n => f n node) :
    Finishes budget b fun n => Visit.offer t h node >>= f n := by
  intro s hs
  -- The rest runs on the whole budget if the node was kept, and else on what is left of it.
  have hrest : ∃ b', b' ≤ b ∧ budget (t.replace h node s).2 ≤ b' ∧
      Precedes (b', size (t.replace h node s).1) q := by
    rcases ht h node s with ⟨hsame, hle⟩ | hlt
    · exact ⟨b, Nat.le_refl b, Nat.le_trans hle hs, hsame.symm ▸ hnode⟩
    · have hb := Nat.lt_of_lt_of_le hlt hs
      exact ⟨_, Nat.le_of_lt hb, Nat.le_refl _, hnode.lower hb _⟩
  obtain ⟨b', hb', hle, hprecedes⟩ := hrest
  obtain ⟨m, v, hv, hvb⟩ := hf b' _ hprecedes _ hle
  exact ⟨m, { v with text := "" ++ v.text },
    fun n hn => bind_eq_some.mpr ⟨_, v, rfl, hv n hn, rfl⟩, Nat.le_trans hvb hb'⟩

/-! ### Lists -/

section Lists

variable {visit : Nat → α → Visit σ α}

theorem eachAfter (lead : String) {xs : List α}
    (h : ∀ x ∈ xs, Finishes budget b fun n => visit n x) :
    Finishes budget b fun n => Visit.eachAfter lead (visit n) xs := by
  induction xs with
  | nil => exact pure _
  | cons x xs ih =>
      obtain ⟨hx, hxs⟩ := List.forall_mem_cons.mp h
      exact bind (emit lead) fun _ => bind hx fun _ => bind (ih hxs) fun _ => pure _

theorem eachBetween (lead : String) {xs : List α}
    (h : ∀ x ∈ xs, Finishes budget b fun n => visit n x) :
    Finishes budget b fun n => Visit.eachBetween lead (visit n) xs := by
  cases xs with
  | nil => exact pure _
  | cons x xs =>
      obtain ⟨hx, hxs⟩ := List.forall_mem_cons.mp h
      exact bind hx fun _ => bind (eachAfter lead hxs) fun _ => pure _

theorem eachOperand {ω : Type} (symbol : ω → String) {xs : List (ω × α)}
    (h : ∀ x ∈ xs, Finishes budget b fun n => visit n x.2) :
    Finishes budget b fun n => Visit.eachOperand symbol (visit n) xs := by
  induction xs with
  | nil => exact pure _
  | cons x xs ih =>
      obtain ⟨hx, hxs⟩ := List.forall_mem_cons.mp h
      exact bind (emit _) fun _ => bind hx fun _ => bind (ih hxs) fun _ => pure _

end Lists

end Finishes

namespace Transform

variable {σ : Type} {t : Transformer σ} {budget : σ → Nat} (ht : t.Budgeted budget)

/-! ## Expressions -/

section Layers

variable {q : Nat × Nat} {visit : Nat → Factor → Visit σ Factor}
  (h : ∀ b f, Precedes (b, f.nesting) q → Finishes budget b fun n => visit n f) {b : Nat}
include ht h

theorem termOver_finishes {x : Term} (hx : Precedes (b, x.nesting) q) :
    Finishes budget b fun n => termOver t (visit n) x := by
  refine .offer ht hx fun b ⟨first, rest⟩ hx => ?_
  have hrest := hx.mono (k := nestingOfMultipliers rest) (Nat.le_max_right ..)
  refine .bind (h b first (hx.mono (Nat.le_max_left ..))) fun _ => .bind (.eachOperand _ ?_)
    fun _ => .pure _
  exact fun x hmem => h b x.2 (hrest.of_mem (fun _ _ => rfl) hmem)

theorem expressionOver_finishes {e : Expression} (he : Precedes (b, e.nesting) q) :
    Finishes budget b fun n => expressionOver t (visit n) e := by
  refine .offer ht he fun b ⟨first, rest⟩ he => ?_
  have hrest := he.mono (k := nestingOfAddends rest) (Nat.le_max_right ..)
  refine .bind (termOver_finishes ht h (he.mono (Nat.le_max_left ..))) fun _ =>
    .bind (.eachOperand _ ?_) fun _ => .pure _
  exact fun x hmem => termOver_finishes ht h (hrest.of_mem (fun _ _ => rfl) hmem)

theorem relationOver_finishes {x : Relation} (hx : Precedes (b, x.nesting) q) :
    Finishes budget b fun n => relationOver t (visit n) x := by
  refine .offer ht hx fun b ⟨left, comparison⟩ hx => ?_
  cases comparison with
  | none =>
      exact .bind (expressionOver_finishes ht h hx) fun _ => .bind (.pure none) fun _ => .pure _
  | some comparison =>
      obtain ⟨op, right⟩ := comparison
      have hleft := expressionOver_finishes ht h (hx.mono (Nat.le_max_left ..))
      have hright := expressionOver_finishes ht h (hx.mono (Nat.le_max_right ..))
      exact .bind hleft fun _ => .bind (.bind (.emit _) fun _ => .bind hright fun _ => .pure _)
        fun _ => .pure _

theorem clauseOver_finishes {c : Clause} (hc : Precedes (b, c.nesting) q) :
    Finishes budget b fun n => clauseOver t (visit n) c :=
  .offer ht hc fun _ ⟨_, _⟩ hc => .bind (.emit _) fun _ =>
    .bind (relationOver_finishes ht h hc) fun _ => .pure _

theorem conjunctionOver_finishes {c : Conjunction} (hc : Precedes (b, c.nesting) q) :
    Finishes budget b fun n => conjunctionOver t (visit n) c := by
  refine .offer ht hc fun b ⟨first, rest⟩ hc => ?_
  have hrest := hc.mono (k := nestingOfClauses rest) (Nat.le_max_right ..)
  refine .bind (clauseOver_finishes ht h (hc.mono (Nat.le_max_left ..))) fun _ =>
    .bind (.eachAfter _ ?_) fun _ => .pure _
  exact fun x hmem => clauseOver_finishes ht h (hrest.of_mem (fun _ _ => rfl) hmem)

theorem conditionOver_finishes {c : Condition} (hc : Precedes (b, c.nesting) q) :
    Finishes budget b fun n => conditionOver t (visit n) c := by
  refine .offer ht hc fun b ⟨first, rest⟩ hc => ?_
  have hrest := hc.mono (k := nestingOfConjunctions rest) (Nat.le_max_right ..)
  refine .bind (conjunctionOver_finishes ht h (hc.mono (Nat.le_max_left ..))) fun _ =>
    .bind (.eachAfter _ ?_) fun _ => .pure _
  exact fun x hmem => conjunctionOver_finishes ht h (hrest.of_mem (fun _ _ => rfl) hmem)

end Layers

section Turn

variable {c n : Nat} {visit : Nat → Factor → Visit σ Factor}
  (h : ∀ b f, Precedes (b, f.nesting) (c, n) → Finishes budget b fun m => visit m f) {b : Nat}
include ht h

/-- The arguments of a call stand a level further in than the call. -/
theorem callOver_finishes {x : Call} (hx : Precedes (b, x.nesting) (c, n + 1)) :
    Finishes budget b fun m => callOver t (visit m) x := by
  refine .offer ht hx fun b ⟨name, args, position⟩ hx => ?_
  have hargs : Precedes (b, nestingOfArguments args) (c, n) := hx.inside
  refine .bind (.emit _) fun _ => .bind (.eachBetween _ ?_) fun _ => .bind (.emit _) fun _ =>
    .pure _
  exact fun e hmem => expressionOver_finishes ht h (hargs.of_mem (fun _ _ => rfl) hmem)

theorem factorOver_finishes {f : Factor} (hf : Precedes (b, f.nesting) (c, n + 1)) :
    Finishes budget b fun m => factorOver t (visit m) f := by
  refine .offer ht hf fun b f hf => ?_
  cases f with
  | call x => exact .map _ (callOver_finishes ht h hf)
  | group inner =>
      exact .bind (.emit _) fun _ => .bind (conditionOver_finishes ht h hf.inside) fun _ =>
        .bind (.emit _) fun _ => .pure _
  | _ => exact .bind (.emit _) fun _ => .pure _

end Turn

include ht

theorem factor_finishes (b : Nat) (f : Factor) : Finishes budget b fun n => factor t n f :=
  .turn (factorOver_finishes ht (fun b f _ => factor_finishes b f)
    (.right b (Nat.lt_succ_self f.nesting)))
termination_by (b, f.nesting)
decreasing_by assumption

/-! ## Statements -/

section Everywhere

variable (b : Nat)

theorem expression_finishes (e : Expression) : Finishes budget b fun n => expression t n e :=
  expressionOver_finishes ht (fun b f _ => factor_finishes ht b f)
    (.of_lt (Nat.lt_succ_self b) _ 0)

theorem relation_finishes (x : Relation) : Finishes budget b fun n => relation t n x :=
  relationOver_finishes ht (fun b f _ => factor_finishes ht b f)
    (.of_lt (Nat.lt_succ_self b) _ 0)

theorem condition_finishes (c : Condition) : Finishes budget b fun n => condition t n c :=
  conditionOver_finishes ht (fun b f _ => factor_finishes ht b f)
    (.of_lt (Nat.lt_succ_self b) _ 0)

theorem call_finishes (c : Call) : Finishes budget b fun n => call t n c :=
  callOver_finishes ht (fun b f _ => factor_finishes ht b f)
    (.of_lt (Nat.lt_succ_self b) _ 1)

theorem bareDeclaration_finishes (d : Declaration) :
    Finishes budget b fun n => bareDeclaration t n d :=
  .offer ht (.of_lt (Nat.lt_succ_self b) d.nesting 0) fun b d _ => .bind (.emit _) fun _ =>
    .bind (expression_finishes ht b d.value) fun _ => .pure _

theorem declaration_finishes (d : Declaration) : Finishes budget b fun n => declaration t n d :=
  .bind (.emit _) fun _ => bareDeclaration_finishes ht b d

theorem assignment_finishes (a : Assignment) : Finishes budget b fun n => assignment t n a :=
  .offer ht (.of_lt (Nat.lt_succ_self b) a.nesting 0) fun b a _ => .bind (.emit _) fun _ =>
    .bind (expression_finishes ht b a.value) fun _ => .pure _

theorem returnsWith_finishes (returns : Option Expression) :
    Finishes budget b fun n => returnsWith t n returns := by
  cases returns with
  | none => exact .pure none
  | some value =>
      exact .bind (.emit _) fun _ => .bind (expression_finishes ht b value) fun _ => .pure _

end Everywhere

section Bodies

variable {q : Nat × Nat} {visit : Nat → Statement → Visit σ Statement}
  (h : ∀ b s, Precedes (b, s.nesting) q → Finishes budget b fun n => visit n s) {b : Nat}
include h

theorem definitionOver_finishes {d : Definition} (hd : Precedes (b, d.nesting) q) :
    Finishes budget b fun n => definitionOver t (visit n) n d := by
  refine .offer ht hd fun b ⟨name, params, body, returns, position⟩ hd => ?_
  have hbody := hd.mono (k := nestingOfStatements body) (Nat.le_max_left ..)
  refine .bind (.emit _) fun _ => .bind (.eachAfter _ ?_) fun _ =>
    .bind (returnsWith_finishes ht b _) fun _ => .bind (.emit _) fun _ => .pure _
  exact fun s hmem => h b s (hbody.of_mem (fun _ _ => rfl) hmem)

theorem conditionalOver_finishes {c : Conditional} (hc : Precedes (b, c.nesting) q) :
    Finishes budget b fun n => conditionalOver t (visit n) n c := by
  refine .offer ht hc fun b ⟨condition, body, position⟩ hc => ?_
  have hbody := hc.mono (k := nestingOfStatements body) (Nat.le_max_right ..)
  refine .bind (.emit _) fun _ => .bind (condition_finishes ht b _) fun _ =>
    .bind (.emit _) fun _ => .bind (.eachAfter _ ?_) fun _ => .bind (.emit _) fun _ => .pure _
  exact fun s hmem => h b s (hbody.of_mem (fun _ _ => rfl) hmem)

theorem loopOver_finishes {l : Loop} (hl : Precedes (b, l.nesting) q) :
    Finishes budget b fun n => loopOver t (visit n) n l := by
  refine .offer ht hl fun b ⟨init, condition, step, body, position⟩ hl => ?_
  have hbody := hl.mono (k := nestingOfStatements body)
    (Nat.le_trans (Nat.le_max_right ..) (Nat.le_max_right ..))
  refine .bind (.emit _) fun _ => .bind (bareDeclaration_finishes ht b _) fun _ =>
    .bind (.emit _) fun _ => .bind (relation_finishes ht b _) fun _ => .bind (.emit _) fun _ =>
      .bind (assignment_finishes ht b _) fun _ => .bind (.emit _) fun _ =>
        .bind (.eachAfter _ ?_) fun _ => .bind (.emit _) fun _ => .pure _
  exact fun s hmem => h b s (hbody.of_mem (fun _ _ => rfl) hmem)

end Bodies

theorem statementOver_finishes {c n : Nat} {visit : Nat → Statement → Visit σ Statement}
    (h : ∀ b s, Precedes (b, s.nesting) (c, n) → Finishes budget b fun m => visit m s) {b : Nat}
    {s : Statement} (hs : Precedes (b, s.nesting) (c, n + 1)) :
    Finishes budget b fun m => statementOver t (visit m) m s := by
  refine .offer ht hs fun b s hs => ?_
  cases s with
  | definition d => exact .map _ (definitionOver_finishes ht h hs.inside)
  | declaration d => exact .map _ (declaration_finishes ht b d)
  | assignment a => exact .map _ (assignment_finishes ht b a)
  | conditional c => exact .map _ (conditionalOver_finishes ht h hs.inside)
  | loop l => exact .map _ (loopOver_finishes ht h hs.inside)
  | call c => exact .map _ (call_finishes ht b c)

theorem statement_finishes (b : Nat) (s : Statement) :
    Finishes budget b fun n => statement t n s :=
  .turn (statementOver_finishes ht (fun b s _ => statement_finishes b s)
    (.right b (Nat.lt_succ_self s.nesting)))
termination_by (b, s.nesting)
decreasing_by assumption

/-! ## Workflows -/

variable (b : Nat)

theorem action_finishes (a : Action) : Finishes budget b fun n => action t n a := by
  have hline s : Finishes budget b fun n => statementLine t n s :=
    .bind (statement_finishes ht b s) fun _ => .bind (.emit _) fun _ => .pure _
  exact .bind (.emit _) fun _ => .bind (.eachAfter _ fun s _ => hline s) fun _ =>
    .bind (.emit _) fun _ => .pure _

theorem guardWith_finishes (guard : Option Condition) :
    Finishes budget b fun n => guardWith t n guard := by
  cases guard with
  | none => exact .pure none
  | some guard =>
      exact .bind (.emit _) fun _ => .bind (condition_finishes ht b guard) fun _ => .pure _

theorem transition_finishes (x : Transition) : Finishes budget b fun n => transition t n x :=
  .bind (.emit _) fun _ => .bind (guardWith_finishes ht b x.guard) fun _ =>
    .bind (.emit _) fun _ => .pure _

theorem node_finishes (x : Node) : Finishes budget b fun n => node t n x :=
  .bind (.emit _) fun _ => .bind (.eachAfter _ fun a _ => action_finishes ht b a) fun _ =>
    .bind (.eachAfter _ fun x _ => transition_finishes ht b x) fun _ =>
      .bind (.emit _) fun _ => .pure _

theorem workflow_finishes (w : Workflow) : Finishes budget b fun n => workflow t n w :=
  .bind (.emit _) fun _ => .bind (.eachAfter _ fun x _ => node_finishes ht b x) fun _ =>
    .bind (.emit _) fun _ => .pure _

end Transform

/-! ## Fragments -/

namespace Fragment

open Transform

variable {σ : Type} {t : Transformer σ} {budget : σ → Nat} (ht : t.Budgeted budget)
include ht

theorem transform_finishes (b : Nat) (f : Fragment) :
    Finishes budget b fun n => f.transform t n := by
  have hlt n : Precedes (b, n) (b + 1, 0) := .of_lt (Nat.lt_succ_self b) n 0
  have hfactor c f (_ : Precedes (c, f.nesting) (b + 1, 0)) := factor_finishes ht c f
  have hstatement c s (_ : Precedes (c, s.nesting) (b + 1, 0)) := statement_finishes ht c s
  cases f with
  | workflow w => exact .map _ (workflow_finishes ht b w)
  | node n => exact .map _ (node_finishes ht b n)
  | action a => exact .map _ (action_finishes ht b a)
  | transition x => exact .map _ (transition_finishes ht b x)
  | script ss => exact .map _ (.eachBetween _ fun s _ => statement_finishes ht b s)
  | statement s => exact .map _ (statement_finishes ht b s)
  | definition d => exact .map _ (definitionOver_finishes ht hstatement (hlt _))
  | call c => exact .map _ (call_finishes ht b c)
  | declaration d => exact .map _ (declaration_finishes ht b d)
  | assignment a => exact .map _ (assignment_finishes ht b a)
  | conditional c => exact .map _ (conditionalOver_finishes ht hstatement (hlt _))
  | loop l => exact .map _ (loopOver_finishes ht hstatement (hlt _))
  | condition c => exact .map _ (condition_finishes ht b c)
  | conjunction c => exact .map _ (conjunctionOver_finishes ht hfactor (hlt _))
  | clause c => exact .map _ (clauseOver_finishes ht hfactor (hlt _))
  | relation x => exact .map _ (relation_finishes ht b x)
  | expression e => exact .map _ (expression_finishes ht b e)
  | term x => exact .map _ (termOver_finishes ht hfactor (hlt _))
  | factor x => exact .map _ (factor_finishes ht b x)

theorem exists_becomes (f : Fragment) (s : σ) : ∃ v, f.Becomes t s v := by
  obtain ⟨fuel, v, hv, -⟩ := f.transform_finishes ht (budget s) s (Nat.le_refl _)
  exact ⟨v, fuel, hv fuel (Nat.le_refl fuel)⟩

end Fragment

/-! ## Replacements are paid for -/

namespace Transformer

variable {σ : Type} {t : Transformer σ} {budget : σ → Nat}

/-- What has been counted and what is left are together never more than
before the call. -/
theorem Budgeted.counting_le (ht : t.Budgeted budget) (h : Hook) (node : h.Node) (s : σ × Nat) :
    (t.counting.replace h node s).2.2 + budget (t.counting.replace h node s).2.1 ≤
      s.2 + budget s.1 := by
  have hcount : (t.counting.replace h node s).2.2 =
      if (t.replace h node s.1).1 = node then s.2 else s.2 + 1 := rfl
  have hstate : (t.counting.replace h node s).2.1 = (t.replace h node s.1).2 := rfl
  rw [hcount, hstate]
  rcases ht h node s.1 with ⟨hsame, hle⟩ | hlt
  · rw [if_pos hsame]
    exact Nat.add_le_add_left hle _
  · split <;> omega

end Transformer

/-! ## Rules -/

/-- The turns that all rules still have. -/
def turns (rules : List Rule) : Nat := rules.foldr (fun rule n => rule.times + n) 0

theorem Rule.times_pos {rule : Rule} {h : Hook} {text : String} {node : h.Node}
    (hanswer : rule.answer? h text = some node) : 0 < rule.times := by
  unfold Rule.answer? at hanswer
  split at hanswer
  · split at hanswer
    next hfires => exact hfires.1
    next => cases hanswer
  · cases hanswer

theorem turns_fireFirst {h : Hook} {text : String} {rules rules' : List Rule} {i : Nat}
    {node : h.Node} (hfire : fireFirst h text rules = some (i, node, rules')) :
    turns rules' < turns rules := by
  induction rules generalizing i rules' with
  | nil => cases hfire
  | cons rule rest ih =>
      simp only [fireFirst] at hfire
      split at hfire
      next node' hanswer =>
          cases hfire
          have hpos := rule.times_pos hanswer
          simp only [turns, List.foldr_cons]
          omega
      next =>
          obtain ⟨⟨j, node', rest'⟩, hrest, heq⟩ := Option.map_eq_some_iff.mp hfire
          cases heq
          exact Nat.add_lt_add_left (ih hrest) rule.times

/-- Every rule that fires uses up a turn. -/
theorem ruleTransformer_budgeted :
    ruleTransformer.Budgeted fun state => turns state.rules := by
  intro h node state
  simp only [ruleTransformer]
  cases hfire : fireFirst h (h.print node) state.rules with
  | none => exact .inl ⟨rfl, Nat.le_refl _⟩
  | some fired =>
      obtain ⟨i, node', rules⟩ := fired
      exact .inr (turns_fireFirst hfire)

/-! ## Without a budget -/

/-- The transformer that puts every factor in brackets, and so is offered it
again inside them. -/
def bracketing : Transformer Unit where
  replace
    | .factor, f, s => (.group f.toExpression.toCondition, s)
    | _, node, s => (node, s)

theorem bracketing_factor (f : Factor) (s : Unit) :
    bracketing.replace .factor f s = (.group f.toExpression.toCondition, s) := rfl

theorem bracketing_of_ne {h : Hook} (hne : h ≠ .factor) (node : h.Node) (s : Unit) :
    bracketing.replace h node s = (node, s) := by
  cases h with
  | factor => exact absurd rfl hne
  | _ => rfl

theorem Transform.factor_bracketing (fuel : Nat) (f : Factor) (s : Unit) :
    Transform.factor bracketing fuel f s = none := by
  induction fuel generalizing f s with
  | zero => rfl
  | succ fuel ih =>
      -- Every layer between the two factors has one part, and keeps it.
      simp only [factor, factorOver, factorParts, conditionOver, conjunctionOver, clauseOver,
        relationOver, expressionOver, termOver, Factor.toExpression, Expression.toCondition,
        Bind.bind, Visit.bind, Visit.offer, Visit.emit, bracketing_factor, bracketing_of_ne,
        ne_eq, reduceCtorEq, not_false_eq_true, ih]

/-- A transformer on a budget comes to an end on every fragment, and at most
as many of its calls as the budget it started with answer with another node
than the one offered. Without a budget it need not come to an end. -/
theorem transformation_terminates :
    (∀ (σ : Type) (t : Transformer σ) (budget : σ → Nat), t.Budgeted budget →
      ∀ (f : Fragment) (s : σ), ∃ v changes, f.Becomes t s v ∧
        f.Becomes t.counting (s, 0) ⟨v.value, v.text, (v.state, changes)⟩ ∧
        changes + budget v.state ≤ budget s) ∧
      ∃ (t : Transformer Unit) (f : Fragment), ∀ v, ¬ f.Becomes t () v := by
  constructor
  · intro σ t budget ht f s
    obtain ⟨v, hv⟩ := f.exists_becomes ht s
    obtain ⟨w, hw, rfl⟩ := (Fragment.becomes_part_iff (s := (s, 0)) t.counting_extends).mp hv
    have hle := hw.cost_le (fun s => s.2 + budget s.1) ht.counting_le
    rw [Nat.zero_add] at hle
    exact ⟨_, w.state.2, hv, hw, hle⟩
  · refine ⟨bracketing, .factor (.integer "0"), fun v ⟨fuel, hv⟩ => ?_⟩
    obtain ⟨_, _, hv, -⟩ := Visit.bind_eq_some.mp hv
    rw [Transform.factor_bracketing] at hv
    cases hv

/-- Puts `x + x` in brackets where `x` is read, twice. -/
def doubling : Rule where
  hook := .factor
  trigger := some "x"
  replacement := .group (Expression.mk ⟨x, []⟩ [(.plus, ⟨x, []⟩)]).toCondition
  times := 2
where
  x : Factor := .variable "x" .start

/-- What the rule puts in contains what it replaces, and it stops all the
same. -/
theorem doubling_terminates :
    ruleTransformer.Budgeted (fun state => turns state.rules) ∧
      ∃ v changes, Fragment.Becomes ruleTransformer (.factor (.variable "x" .start))
          ⟨[doubling], []⟩ v ∧
        Fragment.Becomes ruleTransformer.counting (.factor (.variable "x" .start))
          (⟨[doubling], []⟩, 0) ⟨v.value, v.text, (v.state, changes)⟩ ∧
        changes + turns v.state.rules ≤ 2 :=
  ⟨ruleTransformer_budgeted, transformation_terminates.1 RuleState ruleTransformer
    (fun state => turns state.rules) ruleTransformer_budgeted _ ⟨[doubling], []⟩⟩

end WorkflowScript
