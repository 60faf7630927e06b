import WorkflowScript.Proofs.Encoding.Recovery

/-!
# The JSON form of a tree is faithful

What has been written as JSON is read back as the same tree, whichever rule
of the grammar the tree belongs to. A reader does not mind the order of
fields, fields that it does not know, and the absence of a guard, a returned
expression or a comparison that is null (`json_faithful`).
-/

namespace WorkflowScript

open Json (Carries Recovers asList asString)

variable {n : Nat}

/-! ## Workflows -/

theorem NodeKind.recovers (k : NodeKind) : Recovers n NodeKind.ofJson? (.string k.name) k :=
  .named (by cases k <;> decide)

theorem Phase.recovers (p : Phase) : Recovers n Phase.ofJson? (.string p.name) p :=
  .named (by cases p <;> decide)

theorem recovers_statements {ss : List Statement} (h : ∀ p ∈ positionsOfStatements ss, p.Fits)
    (n : Nat) : Recovers n (asList Statement.ofJson?) (.array (statementsToJson ss)) ss := by
  refine .list ?_
  induction ss with
  | nil => exact .nil
  | cons s ss ih =>
      rw [positionsOfStatements, List.forall_mem_append] at h
      exact .cons (Recovers.whole (s.recovers h.1) n) (ih h.2)

theorem Action.recovers {a : Action} (h : ∀ p ∈ a.positions, p.Fits) :
    Recovers n Action.ofJson? a.toJson a := by
  rw [Action.positions, List.forall_mem_cons] at h
  have hfs : Carries [("phase", .string a.phase.name),
      ("statements", .array (statementsToJson a.statements)), ("position", a.position.toJson)] _ :=
    .self (by simp)
  refine Recovers.lower ?_
  exact .bind (.field hfs (by simp) (by decide) a.phase.recovers) <|
    .bind (.field hfs (by simp) (by decide) (recovers_statements h.2 n)) <|
    .bind (.field hfs (by simp) (by decide) (a.position.recovers h.1 n)) <|
    .pure _ _

theorem Transition.recovers {t : Transition} (h : ∀ p ∈ t.positions, p.Fits) :
    Recovers n Transition.ofJson? t.toJson t := by
  rw [Transition.positions, List.forall_mem_cons] at h
  have hfs : Carries [("target", .string t.target),
      ("guard", Json.ofOption Condition.toJson t.guard), ("position", t.position.toJson)] _ :=
    .self (by simp)
  have hguard : ∀ c, t.guard = some c → Recovers n Condition.ofJson? c.toJson c := by
    intro c hc
    rw [hc] at h
    exact Condition.recovers_whole h.2 n
  refine Recovers.lower ?_
  exact .bind (.field hfs (by simp) (by decide) (.string t.target)) <|
    .bind (.fieldOption hfs (by simp) Condition.toJson_ne_null hguard) <|
    .bind (.field hfs (by simp) (by decide) (t.position.recovers h.1 n)) <|
    .pure _ _

/-- The items of a list are recovered each on its own. -/
theorem recovers_each {α : Type} {read : Json → Option α} {write : α → Json}
    {positions : α → List Position} {as : List α}
    (hitem : ∀ {a}, (∀ p ∈ positions a, p.Fits) → Recovers n read (write a) a)
    (h : ∀ p ∈ as.flatMap positions, p.Fits) :
    Recovers n (asList read) (.array (as.map write)) as :=
  .list <| List.forall₂_map_left_iff.mpr <| List.forall₂_same.mpr fun a ha =>
    hitem fun p hp => h p (List.mem_flatMap.mpr ⟨a, ha, hp⟩)

theorem Node.recovers {nd : Node} (h : ∀ p ∈ nd.positions, p.Fits) :
    Recovers n Node.ofJson? nd.toJson nd := by
  rw [Node.positions, List.forall_mem_cons, List.forall_mem_append] at h
  have hfs : Carries [("kind", .string nd.kind.name), ("name", .string nd.name),
      ("actions", .array (nd.actions.map Action.toJson)),
      ("transitions", .array (nd.transitions.map Transition.toJson)),
      ("position", nd.position.toJson)] _ := .self (by simp)
  refine Recovers.lower ?_
  exact .bind (.field hfs (by simp) (by decide) nd.kind.recovers) <|
    .bind (.field hfs (by simp) (by decide) (.string nd.name)) <|
    .bind (.field hfs (by simp) (by decide) (recovers_each Action.recovers h.2.1)) <|
    .bind (.field hfs (by simp) (by decide) (recovers_each Transition.recovers h.2.2)) <|
    .bind (.field hfs (by simp) (by decide) (nd.position.recovers h.1 n)) <|
    .pure _ _

theorem Workflow.recovers {w : Workflow} (h : ∀ p ∈ w.positions, p.Fits) :
    Recovers n Workflow.ofJson? w.toJson w := by
  rw [Workflow.positions, List.forall_mem_cons] at h
  have hfs : Carries [("name", .string w.name), ("nodes", .array (w.nodes.map Node.toJson)),
      ("position", w.position.toJson)] _ := .self (by simp)
  refine Recovers.lower ?_
  exact .bind (.field hfs (by simp) (by decide) (.string w.name)) <|
    .bind (.field hfs (by simp) (by decide) (recovers_each Node.recovers h.2)) <|
    .bind (.field hfs (by simp) (by decide) (w.position.recovers h.1 n)) <|
    .pure _ _

/-! ## Fragments -/

/-- The rule that a fragment of this form belongs to. -/
def Fragment.form : Fragment → Production
  | workflow _ => .workflow
  | node _ => .node
  | action _ => .action
  | transition _ => .transition
  | script _ => .script
  | statement _ => .statement
  | definition _ => .definition
  | call _ => .call
  | declaration _ => .declaration
  | assignment _ => .assignment
  | conditional _ => .conditional
  | loop _ => .loop
  | condition _ => .condition
  | conjunction _ => .conjunction
  | clause _ => .clause
  | relation _ => .relation
  | expression _ => .expression
  | term _ => .term
  | factor _ => .factor

theorem Fragment.recovers (f : Fragment) (h : ∀ p ∈ f.positions, p.Fits) (n : Nat) :
    Recovers n f.form.ofJson? f.toJson f :=
  match f, h with
  | .workflow _, h => .map Fragment.workflow (Workflow.recovers h)
  | .node _, h => .map Fragment.node (Node.recovers h)
  | .action _, h => .map Fragment.action (Action.recovers h)
  | .transition _, h => .map Fragment.transition (Transition.recovers h)
  | .script _, h => .map Fragment.script (recovers_statements h n)
  | .statement s, h => .map Fragment.statement (.whole (s.recovers h) n)
  | .definition d, h => .map Fragment.definition
      (.whole (fun n => (d.recovers h n _ (.self (by rw [d.names_jsonFields]; decide))).lower) n)
  | .call c, h => .map Fragment.call
      (Call.recovers_whole h (.self (by rw [c.names_jsonFields]; decide)) n)
  | .declaration _, h => .map Fragment.declaration
      (Declaration.recovers h (.self distinct_binding.of_cons)).lower
  | .assignment _, h => .map Fragment.assignment
      (Assignment.recovers h (.self distinct_binding.of_cons)).lower
  | .conditional c, h => .map Fragment.conditional
      (.whole (fun n => (c.recovers h n _ (.self (by rw [c.names_jsonFields]; decide))).lower) n)
  | .loop l, h => .map Fragment.loop
      (.whole (fun n => (l.recovers h n _ (.self (by rw [l.names_jsonFields]; decide))).lower) n)
  | .condition _, h => .map Fragment.condition (Condition.recovers_whole h n)
  | .conjunction c, h => .map Fragment.conjunction (.whole (fun n => (c.recovers h n).lower) n)
  | .clause c, h => .map Fragment.clause (.whole (fun n => (c.recovers h n).lower) n)
  | .relation _, h => .map Fragment.relation (Relation.recovers_whole h n)
  | .expression _, h => .map Fragment.expression (Expression.recovers_whole h n)
  | .term t, h => .map Fragment.term (.whole (fun n => (t.recovers h n).lower) n)
  | .factor x, h => .map Fragment.factor (.whole (x.recovers h) n)

/-- A tree whose positions fit into words is read back from its JSON form, and
from all that this form may be varied to. -/
theorem json_faithful (f : Fragment) (h : ∀ p ∈ f.positions, p.Fits) :
    f.form.ofJson? f.toJson = some f ∧ ∀ j, f.toJson.Varies j → f.form.ofJson? j = some f := by
  have hvaried : ∀ j, f.toJson.Varies j → f.form.ofJson? j = some f :=
    fun j hj => f.recovers h j.depth j hj (Nat.le_refl _)
  exact ⟨hvaried _ (.refl _), hvaried⟩

/-- A transition whose null guard has been left out, with a field that nobody
knows and another order of fields at both levels. -/
theorem json_faithful_open_transition :
    let f : Fragment := .transition ⟨"done", none, ⟨7, 2, 3⟩⟩
    let position : Json := .object [("line", .natural 2), ("offset", .natural 7),
      ("column", .natural 3)]
    f.form.ofJson? (.object [("note", .bool true), ("position", position),
      ("target", .string "done")]) = some f := by
  intro f position
  have hposition : (Position.toJson ⟨7, 2, 3⟩).Varies position :=
    .object (Json.Varies.refl_fields _) (List.forall_mem_nil _) (.swap ..)
  have hkept : Json.FieldsVary Json.Varies
      [("target", .string "done"), ("guard", .null), ("position", Position.toJson ⟨7, 2, 3⟩)]
      [("target", .string "done"), ("position", position)] :=
    .keep (.string _) (.drop (by decide) (.keep hposition .nil))
  have hadded : ∀ x ∈ [("note", Json.bool true)],
      x.1 ∉ ["target", "guard", "position"] ∧ x.1 ≠ "t" := by simp
  have hfits : ∀ p ∈ f.positions, p.Fits := by
    intro p hp
    obtain rfl := List.mem_singleton.mp hp
    exact ⟨by decide, by decide, by decide⟩
  exact (json_faithful f hfits).2 _ (.object hkept hadded (List.reverse_perm _).symm)

end WorkflowScript
