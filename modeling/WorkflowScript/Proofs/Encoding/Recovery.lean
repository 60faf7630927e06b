import WorkflowScript.Fragment.Operations
import WorkflowScript.Proofs.Encoding.Variation

/-!
# Expressions and statements are read back

Every tree is read back from its JSON form, and from every variation of it
(`Json.Varies`). The proofs follow the layers. A layer is read over the reader
of its factors, so it is enough that factors are recovered one level further
in, and the depth of the value pays for the level. A payload may stand on its
own or, with the tag in front of it, as a form of factor or statement:
`Carries` is what both have in common.

Positions are the only part of a tree that a reader may refuse. Their numbers
must fit into words (`Position.Fits`).
-/

namespace WorkflowScript

open Json (Carries Recovers field field? asList asPair asString asBool)

/-- Every number of the position fits into a word. -/
structure Position.Fits (p : Position) : Prop where
  offset : p.offset < Json.wordLimit
  line : p.line < Json.wordLimit
  column : p.column < Json.wordLimit

/-! ## Layers -/

variable {α β γ : Type} {n : Nat} {fs : List (String × Json)}

/-- A layer: its first operand and those behind it. -/
theorem recovers_layer {first : Json → Option α} {item : Json → Option β} {v : Json}
    {vs : List Json} {a : α} {bs : List β} {make : α → List β → γ}
    (hfs : Carries fs [("first", v), ("rest", .array vs)]) (hfirst : Recovers n first v a)
    (hrest : List.Forall₂ (Recovers n item) vs bs) :
    Recovers (n + 1)
      (fun j => field "first" first j >>= fun x =>
        field "rest" (asList item) j >>= fun xs => some (make x xs))
      (.object fs) (make a bs) :=
  .bind (.field hfs (by simp) (by decide) hfirst) <|
  .bind (.field hfs (by simp) (by decide) (.list hrest)) <|
  .pure _ _

theorem distinct_layer : (["first", "rest"] : List String).Nodup := by decide

/-! ## Positions and operators -/

theorem Position.recovers {p : Position} (h : p.Fits) (n : Nat) :
    Recovers n Position.ofJson? p.toJson p := by
  have hfs : Carries [("offset", .natural p.offset), ("line", .natural p.line),
      ("column", .natural p.column)] _ := .self (by simp)
  refine Recovers.lower ?_
  exact .bind (.field hfs (by simp) (by decide) (.word h.offset)) <|
    .bind (.field hfs (by simp) (by decide) (.word h.line)) <|
    .bind (.field hfs (by simp) (by decide) (.word h.column)) <|
    .pure _ _

theorem AddOp.recovers (op : AddOp) : Recovers n AddOp.ofJson? (.string op.name) op :=
  .named (by cases op <;> decide)

theorem MulOp.recovers (op : MulOp) : Recovers n MulOp.ofJson? (.string op.name) op :=
  .named (by cases op <;> decide)

theorem RelOp.recovers (op : RelOp) : Recovers n RelOp.ofJson? (.string op.name) op :=
  .named (by cases op <;> decide)

/-! ## Expressions -/

theorem Condition.names_jsonFields (c : Condition) :
    c.jsonFields.map Prod.fst = ["first", "rest"] := by
  cases c
  rfl

theorem Call.names_jsonFields (c : Call) :
    c.jsonFields.map Prod.fst = ["name", "args", "position"] := by
  cases c
  rfl

/-- A factor is an object, so there is a level for what is inside it. -/
theorem recovers_factorWithin {f : Factor} (h : ∀ n, Recovers (n + 1)
    (factorOfJson? (Factor.ofJsonWithin? n)) f.toJson f) :
    ∀ n, Recovers n (Factor.ofJsonWithin? n) f.toJson f
  | 0 => by
      intro j hj hn
      cases f <;> cases hj <;> cases hn
  | n + 1 => h n

mutual

theorem Condition.recovers : (c : Condition) → (∀ p ∈ c.positions, p.Fits) → ∀ n fs,
    Carries fs c.jsonFields →
      Recovers (n + 1) (conditionOfJson? (Factor.ofJsonWithin? n)) (.object fs) c
  | ⟨first, rest⟩, h, n, fs, hfs => by
      rw [Condition.positions, List.forall_mem_append] at h
      rw [Condition.jsonFields] at hfs
      exact recovers_layer hfs (first.recovers h.1 n).lower
        (conjunctions_recover rest h.2 n)

theorem conjunctions_recover : (cs : List Conjunction) →
    (∀ p ∈ positionsOfConjunctions cs, p.Fits) → ∀ n,
      List.Forall₂ (Recovers n (conjunctionOfJson? (Factor.ofJsonWithin? n)))
        (conjunctionsToJson cs) cs
  | [], _, _ => .nil
  | c :: cs, h, n => by
      rw [positionsOfConjunctions, List.forall_mem_append] at h
      exact .cons (c.recovers h.1 n).lower (conjunctions_recover cs h.2 n)

theorem Conjunction.recovers : (c : Conjunction) → (∀ p ∈ c.positions, p.Fits) → ∀ n,
    Recovers (n + 1) (conjunctionOfJson? (Factor.ofJsonWithin? n)) c.toJson c
  | ⟨first, rest⟩, h, n => by
      rw [Conjunction.positions, List.forall_mem_append] at h
      exact recovers_layer (.self distinct_layer) (first.recovers h.1 n).lower
        (clauses_recover rest h.2 n)

theorem clauses_recover : (cs : List Clause) → (∀ p ∈ positionsOfClauses cs, p.Fits) → ∀ n,
    List.Forall₂ (Recovers n (clauseOfJson? (Factor.ofJsonWithin? n))) (clausesToJson cs) cs
  | [], _, _ => .nil
  | c :: cs, h, n => by
      rw [positionsOfClauses, List.forall_mem_append] at h
      exact .cons (c.recovers h.1 n).lower (clauses_recover cs h.2 n)

theorem Clause.recovers : (c : Clause) → (∀ p ∈ c.positions, p.Fits) → ∀ n,
    Recovers (n + 1) (clauseOfJson? (Factor.ofJsonWithin? n)) c.toJson c
  | ⟨negated, relation⟩, h, n => by
      rw [Clause.positions] at h
      have hfs : Carries [("negated", .bool negated), ("relation", relation.toJson)] _ :=
        .self (by simp)
      exact .bind (.field hfs (by simp) (by decide) (.bool negated)) <|
        .bind (.field hfs (by simp) (by decide)
          (relation.recovers h n).lower) <|
        .pure _ _

theorem Relation.recovers : (r : Relation) → (∀ p ∈ r.positions, p.Fits) → ∀ n,
    Recovers (n + 1) (relationOfJson? (Factor.ofJsonWithin? n)) r.toJson r
  | ⟨left, none⟩, h, n => by
      rw [Relation.positions] at h
      have hfs : Carries [("left", left.toJson), ("comparison", .null)] _ := .self (by simp)
      exact .bind (.field hfs (by simp) (by decide)
          (left.recovers h n).lower) <|
        .bind (.fieldNone hfs (by simp)) <|
        .pure _ _
  | ⟨left, some (op, right)⟩, h, n => by
      rw [Relation.positions, List.forall_mem_append] at h
      have hfs : Carries [("left", left.toJson),
          ("comparison", .array [.string op.name, right.toJson])] _ := .self (by simp)
      exact .bind (.field hfs (by simp) (by decide)
          (left.recovers h.1 n).lower) <|
        .bind (.fieldSome hfs (by simp) (by simp)
          (.pair op.recovers (right.recovers h.2 n).lower)) <|
        .pure _ _

theorem Expression.recovers : (e : Expression) → (∀ p ∈ e.positions, p.Fits) → ∀ n,
    Recovers (n + 1) (expressionOfJson? (Factor.ofJsonWithin? n)) e.toJson e
  | ⟨first, rest⟩, h, n => by
      rw [Expression.positions, List.forall_mem_append] at h
      exact recovers_layer (.self distinct_layer) (first.recovers h.1 n).lower
        (addends_recover rest h.2 n)

theorem addends_recover : (rest : List (AddOp × Term)) →
    (∀ p ∈ positionsOfAddends rest, p.Fits) → ∀ n,
      List.Forall₂ (Recovers n (asPair AddOp.ofJson? (termOfJson? (Factor.ofJsonWithin? n))))
        (addendsToJson rest) rest
  | [], _, _ => .nil
  | (op, t) :: rest, h, n => by
      rw [positionsOfAddends, List.forall_mem_append] at h
      exact .cons (.pair op.recovers (t.recovers h.1 n).lower)
        (addends_recover rest h.2 n)

theorem Term.recovers : (t : Term) → (∀ p ∈ t.positions, p.Fits) → ∀ n,
    Recovers (n + 1) (termOfJson? (Factor.ofJsonWithin? n)) t.toJson t
  | ⟨first, rest⟩, h, n => by
      rw [Term.positions, List.forall_mem_append] at h
      exact recovers_layer (.self distinct_layer) (first.recovers h.1 n)
        (multipliers_recover rest h.2 n)

theorem multipliers_recover : (rest : List (MulOp × Factor)) →
    (∀ p ∈ positionsOfMultipliers rest, p.Fits) → ∀ n,
      List.Forall₂ (Recovers n (asPair MulOp.ofJson? (Factor.ofJsonWithin? n)))
        (multipliersToJson rest) rest
  | [], _, _ => .nil
  | (op, f) :: rest, h, n => by
      rw [positionsOfMultipliers, List.forall_mem_append] at h
      exact .cons (.pair op.recovers (f.recovers h.1 n)) (multipliers_recover rest h.2 n)

theorem Factor.recovers : (f : Factor) → (∀ p ∈ f.positions, p.Fits) → ∀ n,
    Recovers n (Factor.ofJsonWithin? n) f.toJson f
  | .variable name position, h => recovers_factorWithin fun n => by
      have hfs : Carries [("t", .string "Variable"), ("name", .string name),
          ("position", position.toJson)] _ := .self (by simp)
      have hposition := position.recovers (h position (by simp [Factor.positions])) n
      exact .bind (.field hfs (by simp) (by decide) (.string "Variable")) <|
        .bind (.field hfs (by simp) (by decide) (.string name)) <|
        .bind (.field hfs (by simp) (by decide) hposition) <|
        .pure _ _
  | .call call, h => recovers_factorWithin fun n => by
      rw [Factor.positions] at h
      have hfs : Carries (("t", .string "Call") :: call.jsonFields) call.jsonFields :=
        .tagged (by rw [call.names_jsonFields]; decide)
      exact .bind (.tag hfs) <|
        (call.recovers h n _ hfs).map Factor.call
  | .integer text, _ => recovers_factorWithin fun n => by
      have hfs : Carries [("t", .string "Integer"), ("text", .string text)] _ := .self (by simp)
      exact .bind (.field hfs (by simp) (by decide) (.string "Integer")) <|
        .map Factor.integer (.field hfs (by simp) (by decide) (.string text))
  | .string text, _ => recovers_factorWithin fun n => by
      have hfs : Carries [("t", .string "String"), ("text", .string text)] _ := .self (by simp)
      exact .bind (.field hfs (by simp) (by decide) (.string "String")) <|
        .map Factor.string (.field hfs (by simp) (by decide) (.string text))
  | .bool value, _ => recovers_factorWithin fun n => by
      have hfs : Carries [("t", .string "Bool"), ("value", .bool value)] _ := .self (by simp)
      exact .bind (.field hfs (by simp) (by decide) (.string "Bool")) <|
        .map Factor.bool (.field hfs (by simp) (by decide) (.bool value))
  | .group inner, h => recovers_factorWithin fun n => by
      rw [Factor.positions] at h
      have hfs : Carries (("t", .string "Group") :: inner.jsonFields) inner.jsonFields :=
        .tagged (by rw [inner.names_jsonFields]; decide)
      exact .bind (.tag hfs) <|
        (inner.recovers h n _ hfs).map Factor.group

theorem Call.recovers : (c : Call) → (∀ p ∈ c.positions, p.Fits) → ∀ n fs,
    Carries fs c.jsonFields →
      Recovers (n + 1) (callOfJson? (Factor.ofJsonWithin? n)) (.object fs) c
  | ⟨name, args, position⟩, h, n, fs, hfs => by
      rw [Call.positions, List.forall_mem_cons] at h
      rw [Call.jsonFields] at hfs
      exact .bind (.field hfs (by simp) (by decide) (.string name)) <|
        .bind (.field hfs (by simp) (by decide)
          (.list (arguments_recover args h.2 n))) <|
        .bind (.field hfs (by simp) (by decide) (position.recovers h.1 n)) <|
        .pure _ _

theorem arguments_recover : (es : List Expression) → (∀ p ∈ positionsOfArguments es, p.Fits) →
    ∀ n, List.Forall₂ (Recovers n (expressionOfJson? (Factor.ofJsonWithin? n)))
      (argumentsToJson es) es
  | [], _, _ => .nil
  | e :: es, h, n => by
      rw [positionsOfArguments, List.forall_mem_append] at h
      exact .cons (e.recovers h.1 n).lower (arguments_recover es h.2 n)

end

/-! ## Statements -/

theorem Expression.recovers_whole {e : Expression} (h : ∀ p ∈ e.positions, p.Fits) :
    ∀ n, Recovers n Expression.ofJson? e.toJson e :=
  .whole fun n => (e.recovers h n).lower

theorem Condition.recovers_whole {c : Condition} (h : ∀ p ∈ c.positions, p.Fits) :
    ∀ n, Recovers n Condition.ofJson? c.toJson c :=
  .whole fun n => (c.recovers h n _ (.self (by rw [c.names_jsonFields]; decide))).lower

theorem Relation.recovers_whole {r : Relation} (h : ∀ p ∈ r.positions, p.Fits) :
    ∀ n, Recovers n Relation.ofJson? r.toJson r :=
  .whole fun n => (r.recovers h n).lower

theorem Expression.toJson_ne_null (e : Expression) : e.toJson ≠ .null := by
  cases e
  exact nofun

theorem Condition.toJson_ne_null (c : Condition) : c.toJson ≠ .null := nofun

/-- What a declaration and an assignment have in common: a name, a value and
a position. -/
theorem recovers_binding {name : String} {value : Expression} {position : Position}
    {make : String → Expression → Position → γ} (hvalue : ∀ p ∈ value.positions, p.Fits)
    (hposition : position.Fits)
    (hfs : Carries fs [("name", .string name), ("value", value.toJson),
      ("position", position.toJson)]) :
    Recovers (n + 1)
      (fun j => field "name" asString j >>= fun x => field "value" Expression.ofJson? j >>= fun e =>
        field "position" Position.ofJson? j >>= fun p => some (make x e p))
      (.object fs) (make name value position) :=
  .bind (.field hfs (by simp) (by decide) (.string name)) <|
  .bind (.field hfs (by simp) (by decide) (Expression.recovers_whole hvalue n)) <|
  .bind (.field hfs (by simp) (by decide) (Position.recovers hposition n)) <|
  .pure _ _

theorem Declaration.recovers {d : Declaration} (h : ∀ p ∈ d.positions, p.Fits)
    (hfs : Carries fs d.jsonFields) : Recovers (n + 1) Declaration.ofJson? (.object fs) d := by
  rw [Declaration.positions, List.forall_mem_cons] at h
  exact recovers_binding h.2 h.1 hfs

theorem Assignment.recovers {a : Assignment} (h : ∀ p ∈ a.positions, p.Fits)
    (hfs : Carries fs a.jsonFields) : Recovers (n + 1) Assignment.ofJson? (.object fs) a := by
  rw [Assignment.positions, List.forall_mem_cons] at h
  exact recovers_binding h.2 h.1 hfs

theorem distinct_binding : ("t" :: ["name", "value", "position"]).Nodup := by decide

theorem Call.recovers_whole {c : Call} (h : ∀ p ∈ c.positions, p.Fits)
    (hfs : Carries fs c.jsonFields) : ∀ n, Recovers n Call.ofJson? (.object fs) c :=
  .whole fun n => (c.recovers h n fs hfs).lower

theorem Definition.names_jsonFields (d : Definition) :
    d.jsonFields.map Prod.fst = ["name", "params", "body", "returns", "position"] := by
  cases d
  rfl

theorem Conditional.names_jsonFields (c : Conditional) :
    c.jsonFields.map Prod.fst = ["condition", "body", "position"] := by
  cases c
  rfl

theorem Loop.names_jsonFields (l : Loop) :
    l.jsonFields.map Prod.fst = ["init", "condition", "step", "body", "position"] := by
  cases l
  rfl

/-- A statement is an object, so there is a level for its body. -/
theorem recovers_statementWithin {s : Statement} (h : ∀ n, Recovers (n + 1)
    (statementOfJson? (Statement.ofJsonWithin? n)) s.toJson s) :
    ∀ n, Recovers n (Statement.ofJsonWithin? n) s.toJson s
  | 0 => by
      intro j hj hn
      cases s <;> cases hj <;> cases hn
  | n + 1 => h n

mutual

theorem Statement.recovers : (s : Statement) → (∀ p ∈ s.positions, p.Fits) → ∀ n,
    Recovers n (Statement.ofJsonWithin? n) s.toJson s
  | .definition d, h => recovers_statementWithin fun n => by
      rw [Statement.positions] at h
      have hfs : Carries (("t", .string "Definition") :: d.jsonFields) d.jsonFields :=
        .tagged (by rw [d.names_jsonFields]; decide)
      exact .bind (.tag hfs) <|
        (d.recovers h n _ hfs).map Statement.definition
  | .declaration d, h => recovers_statementWithin fun n => by
      rw [Statement.positions] at h
      have hfs : Carries (("t", .string "VarDeclaration") :: d.jsonFields) d.jsonFields :=
        .tagged distinct_binding
      exact .bind (.tag hfs) <|
        (Declaration.recovers h hfs).map Statement.declaration
  | .assignment a, h => recovers_statementWithin fun n => by
      rw [Statement.positions] at h
      have hfs : Carries (("t", .string "VarAssignment") :: a.jsonFields) a.jsonFields :=
        .tagged distinct_binding
      exact .bind (.tag hfs) <|
        (Assignment.recovers h hfs).map Statement.assignment
  | .conditional c, h => recovers_statementWithin fun n => by
      rw [Statement.positions] at h
      have hfs : Carries (("t", .string "If") :: c.jsonFields) c.jsonFields :=
        .tagged (by rw [c.names_jsonFields]; decide)
      exact .bind (.tag hfs) <|
        (c.recovers h n _ hfs).map Statement.conditional
  | .loop l, h => recovers_statementWithin fun n => by
      rw [Statement.positions] at h
      have hfs : Carries (("t", .string "For") :: l.jsonFields) l.jsonFields :=
        .tagged (by rw [l.names_jsonFields]; decide)
      exact .bind (.tag hfs) <|
        (l.recovers h n _ hfs).map Statement.loop
  | .call c, h => recovers_statementWithin fun n => by
      rw [Statement.positions] at h
      have hfs : Carries (("t", .string "Call") :: c.jsonFields) c.jsonFields :=
        .tagged (by rw [c.names_jsonFields]; decide)
      exact .bind (.tag hfs) <|
        (Call.recovers_whole h hfs (n + 1)).map Statement.call

theorem Definition.recovers : (d : Definition) → (∀ p ∈ d.positions, p.Fits) → ∀ n fs,
    Carries fs d.jsonFields →
      Recovers (n + 1) (definitionOfJson? (Statement.ofJsonWithin? n)) (.object fs) d
  | ⟨name, params, body, returns, position⟩, h, n, fs, hfs => by
      rw [Definition.positions, List.forall_mem_cons, List.forall_mem_append] at h
      rw [Definition.jsonFields] at hfs
      have hparams : List.Forall₂ (Recovers n asString) (params.map .string) params :=
        List.forall₂_map_left_iff.mpr (List.forall₂_same.mpr fun name _ => .string name)
      have hreturns : ∀ e, returns = some e → Recovers n Expression.ofJson? e.toJson e := by
        rintro e rfl
        exact Expression.recovers_whole h.2.2 n
      exact .bind (.field hfs (by simp) (by decide) (.string name)) <|
        .bind (.field hfs (by simp) (by decide) (.list hparams)) <|
        .bind (.field hfs (by simp) (by decide) (.list (statements_recover body h.2.1 n))) <|
        .bind (.fieldOption hfs (by simp) Expression.toJson_ne_null hreturns) <|
        .bind (.field hfs (by simp) (by decide) (position.recovers h.1 n)) <|
        .pure _ _

theorem Conditional.recovers : (c : Conditional) → (∀ p ∈ c.positions, p.Fits) → ∀ n fs,
    Carries fs c.jsonFields →
      Recovers (n + 1) (conditionalOfJson? (Statement.ofJsonWithin? n)) (.object fs) c
  | ⟨condition, body, position⟩, h, n, fs, hfs => by
      rw [Conditional.positions, List.forall_mem_cons, List.forall_mem_append] at h
      rw [Conditional.jsonFields] at hfs
      exact .bind (.field hfs (by simp) (by decide) (Condition.recovers_whole h.2.1 n)) <|
        .bind (.field hfs (by simp) (by decide) (.list (statements_recover body h.2.2 n))) <|
        .bind (.field hfs (by simp) (by decide) (position.recovers h.1 n)) <|
        .pure _ _

theorem Loop.recovers : (l : Loop) → (∀ p ∈ l.positions, p.Fits) → ∀ n fs,
    Carries fs l.jsonFields →
      Recovers (n + 1) (loopOfJson? (Statement.ofJsonWithin? n)) (.object fs) l
  | ⟨init, condition, step, body, position⟩, h, n, fs, hfs => by
      simp only [Loop.positions, List.forall_mem_cons, List.forall_mem_append] at h
      obtain ⟨hposition, hinit, hcondition, hstep, hbody⟩ := h
      rw [Loop.jsonFields] at hfs
      have hdeclared : Recovers n Declaration.ofJson? init.toJson init :=
        (Declaration.recovers hinit (.self distinct_binding.of_cons)).lower
      have hassigned : Recovers n Assignment.ofJson? step.toJson step :=
        (Assignment.recovers hstep (.self distinct_binding.of_cons)).lower
      exact .bind (.field hfs (by simp) (by decide) hdeclared) <|
        .bind (.field hfs (by simp) (by decide) (Relation.recovers_whole hcondition n)) <|
        .bind (.field hfs (by simp) (by decide) hassigned) <|
        .bind (.field hfs (by simp) (by decide) (.list (statements_recover body hbody n))) <|
        .bind (.field hfs (by simp) (by decide) (position.recovers hposition n)) <|
        .pure _ _

theorem statements_recover : (ss : List Statement) → (∀ p ∈ positionsOfStatements ss, p.Fits) →
    ∀ n, List.Forall₂ (Recovers n (Statement.ofJsonWithin? n)) (statementsToJson ss) ss
  | [], _, _ => .nil
  | s :: ss, h, n => by
      rw [positionsOfStatements, List.forall_mem_append] at h
      exact .cons (s.recovers h.1 n) (statements_recover ss h.2 n)

end

end WorkflowScript
