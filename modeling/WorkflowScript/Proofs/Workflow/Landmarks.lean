import WorkflowScript.Proofs.Token.Placement
import WorkflowScript.Proofs.Workflow.RoundTrip
import WorkflowScript.Workflow.Landmarks

/-!
# Positions of a parsed tree

A derivation copies the positions of some of its tokens into the tree, in the
order of the tokens, and each of them from the token that the landmark
names (`Derives.along`, for each family of nonterminals). The tokens of
a text stand one behind the other. So every position of a parsed tree is
that of its token, and the positions met on a walk increase
(`positions_faithful`).
-/

namespace WorkflowScript

open Grammar

/-! ## Landmarks along tokens -/

/-- The token has this text, if it is spelled as its kind demands. -/
def Token.Says (t : Token) (text : String) : Prop := t.WellSpelled → t.text = text

theorem Token.says_text (t : Token) : t.Says t.text := fun _ => rfl

theorem Token.says_of_kind {t : Token} {k : TokenKind} {text : String} (hk : t.kind = k)
    (htext : k.spelling? = some text) : t.Says text := by
  intro hspelled
  rw [Token.WellSpelled, hk] at hspelled
  cases k <;> simp_all [TokenKind.spelling?, TokenKind.spells]

/-- The landmarks stand at some of the tokens, in their order. -/
inductive Along : List Token → List Landmark → Prop
  | nil : Along [] []
  | skip {t ts ms} : Along ts ms → Along (t :: ts) ms
  | token {t text ts ms} :
      t.Says text → Along ts ms → Along (t :: ts) (.token text t.position :: ms)
  | headKeyword {start var name ts ms} :
      start.Says "for" → var.Says "var" → Along ts ms →
      Along (start :: var :: name :: ts)
        (.token "for" start.position :: .head start.position name.text var.position :: ms)
  | headName {start name ts ms} :
      start.Says "for" → name.kind = .identifier → Along ts ms →
      Along (start :: name :: ts)
        (.token "for" start.position :: .head start.position name.text name.position :: ms)

namespace Along

variable {ts us : List Token} {ms ns : List Landmark}

theorem none : (ts : List Token) → Along ts []
  | [] => .nil
  | _ :: ts => .skip (none ts)

theorem append (h : Along ts ms) (h' : Along us ns) : Along (ts ++ us) (ms ++ ns) := by
  induction h with
  | nil => exact h'
  | skip _ ih => exact .skip ih
  | token htext _ ih => exact .token htext ih
  | headKeyword hstart hvar _ ih => exact .headKeyword hstart hvar ih
  | headName hstart hname _ ih => exact .headName hstart hname ih

/-- Tokens without landmarks may follow. -/
theorem behind (h : Along ts ms) (us : List Token) : Along (ts ++ us) ms := by
  have h := h.append (none us)
  rwa [List.append_nil] at h

/-- Tokens without landmarks may stand in front. -/
theorem after (h : Along us ns) (ts : List Token) : Along (ts ++ us) ns :=
  (none ts).append h

theorem sublist (h : Along ts ms) :
    (ms.map Landmark.position).Sublist (ts.map Token.position) := by
  induction h with
  | nil => exact .slnil
  | skip _ ih => exact ih.cons _
  | token _ _ ih => exact ih.cons_cons _
  | headKeyword _ _ _ ih => exact ((ih.cons _).cons_cons _).cons_cons _
  | headName _ _ _ ih => exact (ih.cons_cons _).cons_cons _

end Along

theorem Landmark.StandsIn.cons {m : Landmark} {ts : List Token} (h : m.StandsIn ts) (t : Token) :
    m.StandsIn (t :: ts) := by
  cases m with
  | token text position =>
      obtain ⟨u, hu, hsays⟩ := h
      exact ⟨u, List.mem_cons_of_mem t hu, hsays⟩
  | head loop name position =>
      obtain ⟨before, start, u, after, rfl, hsays⟩ := h
      exact ⟨t :: before, start, u, after, rfl, hsays⟩

theorem isName_ne_var {name : String} (h : Lexical.isName name) : name ≠ "var" := by
  rintro rfl
  exact absurd h (by decide)

/-- Among well-spelled tokens every landmark is what it says. -/
theorem Along.standsIn {ts : List Token} {ms : List Landmark} (h : Along ts ms)
    (hts : ∀ t ∈ ts, t.WellSpelled) : ∀ m ∈ ms, m.StandsIn ts := by
  induction h with
  | nil => exact fun _ hm => nomatch hm
  | skip _ ih =>
      obtain ⟨-, hts⟩ := List.forall_mem_cons.mp hts
      exact fun m hm => (ih hts m hm).cons _
  | @token t text ts ms htext _ ih =>
      obtain ⟨ht, hts⟩ := List.forall_mem_cons.mp hts
      refine List.forall_mem_cons.mpr ⟨?_, fun m hm => (ih hts m hm).cons _⟩
      exact ⟨t, List.mem_cons_self .., rfl, htext ht⟩
  | @headKeyword start var name ts ms hstart hvar _ ih =>
      obtain ⟨hs, hv, -, hts⟩ : start.WellSpelled ∧ var.WellSpelled ∧ name.WellSpelled ∧
          ∀ t ∈ ts, t.WellSpelled := by simpa using hts
      refine List.forall_mem_cons.mpr ⟨⟨start, List.mem_cons_self .., rfl, hstart hs⟩,
        List.forall_mem_cons.mpr ⟨?_, fun m hm => (((ih hts m hm).cons _).cons _).cons _⟩⟩
      exact ⟨[], start, var, name :: ts, rfl, rfl, hstart hs, rfl, .inl ⟨hvar hv, rfl⟩⟩
  | @headName start name ts ms hstart hname _ ih =>
      obtain ⟨hs, hn, hts⟩ : start.WellSpelled ∧ name.WellSpelled ∧ ∀ t ∈ ts, t.WellSpelled := by
        simpa using hts
      refine List.forall_mem_cons.mpr ⟨⟨start, List.mem_cons_self .., rfl, hstart hs⟩,
        List.forall_mem_cons.mpr ⟨?_, fun m hm => ((ih hts m hm).cons _).cons _⟩⟩
      exact ⟨[], start, name, ts, rfl, rfl, hstart hs, rfl,
        .inr ⟨rfl, isName_ne_var (hn.isName hname)⟩⟩

namespace Grammar

/-! ## Expressions -/

namespace ExpressionSymbol

def landmarks : (s : ExpressionSymbol) → s.Tree → List Landmark
  | condition, c => c.landmarks
  | alternatives, cs => landmarksOfConjunctions cs
  | conjunction, c => c.landmarks
  | conjuncts, cs => landmarksOfClauses cs
  | clause, c => c.landmarks
  | relation, r => r.landmarks
  | expression, e => e.landmarks
  | addends, ts => landmarksOfAddends ts
  | term, t => t.landmarks
  | multipliers, fs => landmarksOfMultipliers fs
  | factor, f => f.landmarks
  | call, c => c.landmarks
  | arguments, es => landmarksOfArguments es
  | moreArguments, es => landmarksOfArguments es

theorem Derives.along {s : ExpressionSymbol} {ts : List Token} {t : s.Tree}
    (h : s.Derives ts t) : Along ts (s.landmarks t) := by
  induction h with
  | noAlternative | noConjunct | noAddend | noMultiplier | noMoreArguments => exact .nil
  | integer | string | true | false | noArguments => exact .none _
  | condition _ _ ih ih' | conjunction _ _ ih ih' | expression _ _ ih ih' | term _ _ ih ih' =>
      exact ih.append ih'
  | alternative _ _ _ ih ih' | conjunct _ _ _ ih ih' | addend _ _ _ ih ih'
  | multiplier _ _ _ ih ih' | moreArguments _ _ _ ih ih' => exact .skip (ih.append ih')
  | clause _ ih | relation _ ih | callFactor _ ih => exact ih
  | negation _ _ ih => exact .skip ih
  | comparison _ _ _ ih ih' => exact ih.append (.skip ih')
  | variableFactor => exact .token (Token.says_text _) .nil
  | group _ _ _ ih => exact .skip (ih.behind _)
  | call _ _ ih => exact .token (Token.says_text _) ih
  | arguments _ _ _ _ ih ih' => exact .skip ((ih.append ih').behind _)

end ExpressionSymbol

/-! ## Statements -/

theorem DerivesAssignment.along {ts : List Token} {a : Assignment}
    (h : DerivesAssignment ts a) : Along ts a.landmarks := by
  cases h with
  | assignment _ _ he => exact .token (Token.says_text _) (.skip he.along)

theorem DerivesDeclaration.along {ts : List Token} {d : Declaration}
    (h : DerivesDeclaration ts d) : Along ts d.landmarks := by
  cases h with
  | declaration hvar _ _ he =>
      exact .token (Token.says_of_kind hvar rfl) (.skip (.skip he.along))

/-- Together with the `for` in front of it. -/
theorem DerivesBareDeclaration.along {start : Token} {ts : List Token} {d : Declaration}
    (hstart : start.Says "for") (h : DerivesBareDeclaration ts d) :
    Along (start :: ts) (.token "for" start.position :: d.headLandmarks start.position) := by
  cases h with
  | keyword hd =>
      cases hd with
      | declaration hvar _ _ he =>
          exact .headKeyword hstart (Token.says_of_kind hvar rfl) (.skip he.along)
  | bare hname _ he => exact .headName hstart hname (.skip he.along)

theorem DerivesReturns.along {ts : List Token} {returns : Option Expression}
    (h : DerivesReturns ts returns) :
    Along ts (landmarksOfOption Expression.landmarks returns) := by
  cases h with
  | none => exact .nil
  | some _ he => exact .skip he.along

namespace StatementSymbol

def landmarks : (s : StatementSymbol) → s.Tree → List Landmark
  | statement, s => s.landmarks
  | statements, ss => landmarksOfStatements ss
  | definition, d => d.landmarks
  | conditional, c => c.landmarks
  | loop, l => l.landmarks

theorem Derives.along {s : StatementSymbol} {ts : List Token} {t : s.Tree}
    (h : s.Derives ts t) : Along ts (s.landmarks t) := by
  induction h with
  | ofDefinition _ ih | ofConditional _ ih | ofLoop _ ih => exact ih
  | ofDeclaration hd => exact hd.along
  | ofCall hc => exact hc.along
  | ofAssignment ha => exact ha.along
  | nil => exact .nil
  | cons _ _ ih ih' => exact ih.append ih'
  | @definition _ name ts us vs fin _ _ _ hstart _ _ _ hreturns _ ih =>
      have hbody := ((ih.append hreturns.along).behind [fin]).after (name :: ts)
      have h := Along.token (Token.says_of_kind hstart rfl) hbody
      simpa only [List.append_assoc, List.cons_append, landmarks, Definition.landmarks] using h
  | @conditional _ _ thenWord _ fin _ _ hstart htest _ _ _ ih =>
      have hbody := (htest.along.append (.skip (t := thenWord) ih)).behind [fin]
      have h := Along.token (Token.says_of_kind hstart rfl) hbody
      simpa only [List.append_assoc, List.cons_append, landmarks, Conditional.landmarks,
        ExpressionSymbol.landmarks] using h
  | @loop _ _ semi _ semi' _ doWord _ fin _ _ _ _ hstart hinit _ htest _ hstep _ _ _ ih =>
      have hhead := hinit.along (Token.says_of_kind hstart rfl)
      have hstep := hstep.along.append (.skip (t := doWord) ih)
      have htest := htest.along.append (.skip (t := semi') hstep)
      have h := hhead.append (.skip (t := semi) (htest.behind [fin]))
      simpa only [List.append_assoc, List.cons_append, landmarks, Loop.landmarks,
        ExpressionSymbol.landmarks] using h

end StatementSymbol

/-! ## Workflows -/

theorem DerivesAction.along {ts : List Token} {a : Action} (h : DerivesAction ts a) :
    Along ts a.landmarks := by
  cases h with
  | @action _ _ fin phase _ hstart hbody _ =>
      have hstart := Token.says_of_kind hstart phase.spelling?_kind
      exact .token hstart (hbody.along.behind [fin])

theorem DerivesGuard.along {ts : List Token} {guard : Option Condition}
    (h : DerivesGuard ts guard) :
    Along ts (landmarksOfOption Condition.landmarks guard) := by
  cases h with
  | none => exact .nil
  | some _ htest => exact .skip htest.along

theorem DerivesTransition.along {ts : List Token} {t : Transition}
    (h : DerivesTransition ts t) : Along ts t.landmarks := by
  cases h with
  | transition hstart _ _ hguard =>
      exact .token (Token.says_of_kind hstart rfl) (.skip (.skip hguard.along))

/-- Members of the other kind lie in between. -/
theorem DerivesMembers.along {ts : List Token} {as : List Action} {trs : List Transition}
    (h : DerivesMembers ts as trs) :
    Along ts (as.flatMap Action.landmarks) ∧ Along ts (trs.flatMap Transition.landmarks) := by
  induction h with
  | nil => exact ⟨.nil, .nil⟩
  | action ha _ ih => exact ⟨ha.along.append ih.1, ih.2.after _⟩
  | transition ht _ ih => exact ⟨ih.1.after _, ht.along.append ih.2⟩

theorem DerivesNode.along {ts : List Token} {n : Node} (h : DerivesNode ts n)
    (members : Members) : Along ts (n.landmarks members) := by
  cases h with
  | @node _ _ _ fin kind _ _ hstart _ hmembers _ =>
      have hstart := Token.says_of_kind hstart kind.spelling?_kind
      obtain ⟨hactions, htransitions⟩ := hmembers.along
      cases members with
      | actions => exact .token hstart (.skip (hactions.behind [fin]))
      | transitions => exact .token hstart (.skip (htransitions.behind [fin]))

theorem DerivesNodes.along {ts : List Token} {ns : List Node} (h : DerivesNodes ts ns)
    (members : Members) : Along ts (ns.flatMap fun n => n.landmarks members) := by
  induction h with
  | nil => exact .nil
  | cons hn _ ih => exact (hn.along members).append ih

theorem DerivesWorkflow.along {ts : List Token} {w : Workflow} (h : DerivesWorkflow ts w)
    (members : Members) : Along ts (w.landmarks members) := by
  cases h with
  | @workflow _ _ _ fin _ hstart _ hnodes _ =>
      exact .token (Token.says_of_kind hstart rfl)
        (.skip ((hnodes.along members).behind [fin]))

end Grammar

/-! ## No position is left out -/

mutual

theorem Condition.map_landmarks :
    (c : Condition) → c.landmarks.map Landmark.position = c.positions
  | ⟨first, rest⟩ => by
      rw [Condition.landmarks, Condition.positions, List.map_append, first.map_landmarks,
        map_landmarksOfConjunctions rest]

theorem map_landmarksOfConjunctions :
    (cs : List Conjunction) →
      (landmarksOfConjunctions cs).map Landmark.position = positionsOfConjunctions cs
  | [] => rfl
  | c :: cs => by
      rw [landmarksOfConjunctions, positionsOfConjunctions, List.map_append, c.map_landmarks,
        map_landmarksOfConjunctions cs]

theorem Conjunction.map_landmarks :
    (c : Conjunction) → c.landmarks.map Landmark.position = c.positions
  | ⟨first, rest⟩ => by
      rw [Conjunction.landmarks, Conjunction.positions, List.map_append, first.map_landmarks,
        map_landmarksOfClauses rest]

theorem map_landmarksOfClauses :
    (cs : List Clause) → (landmarksOfClauses cs).map Landmark.position = positionsOfClauses cs
  | [] => rfl
  | c :: cs => by
      rw [landmarksOfClauses, positionsOfClauses, List.map_append, c.map_landmarks,
        map_landmarksOfClauses cs]

theorem Clause.map_landmarks :
    (c : Clause) → c.landmarks.map Landmark.position = c.positions
  | ⟨_, relation⟩ => by rw [Clause.landmarks, Clause.positions, relation.map_landmarks]

theorem Relation.map_landmarks :
    (r : Relation) → r.landmarks.map Landmark.position = r.positions
  | ⟨left, none⟩ => by rw [Relation.landmarks, Relation.positions, left.map_landmarks]
  | ⟨left, some (_, right)⟩ => by
      rw [Relation.landmarks, Relation.positions, List.map_append, left.map_landmarks,
        right.map_landmarks]

theorem Expression.map_landmarks :
    (e : Expression) → e.landmarks.map Landmark.position = e.positions
  | ⟨first, rest⟩ => by
      rw [Expression.landmarks, Expression.positions, List.map_append, first.map_landmarks,
        map_landmarksOfAddends rest]

theorem map_landmarksOfAddends :
    (ts : List (AddOp × Term)) →
      (landmarksOfAddends ts).map Landmark.position = positionsOfAddends ts
  | [] => rfl
  | (_, t) :: ts => by
      rw [landmarksOfAddends, positionsOfAddends, List.map_append, t.map_landmarks,
        map_landmarksOfAddends ts]

theorem Term.map_landmarks :
    (t : Term) → t.landmarks.map Landmark.position = t.positions
  | ⟨first, rest⟩ => by
      rw [Term.landmarks, Term.positions, List.map_append, first.map_landmarks,
        map_landmarksOfMultipliers rest]

theorem map_landmarksOfMultipliers :
    (fs : List (MulOp × Factor)) →
      (landmarksOfMultipliers fs).map Landmark.position = positionsOfMultipliers fs
  | [] => rfl
  | (_, f) :: fs => by
      rw [landmarksOfMultipliers, positionsOfMultipliers, List.map_append, f.map_landmarks,
        map_landmarksOfMultipliers fs]

theorem Factor.map_landmarks :
    (f : Factor) → f.landmarks.map Landmark.position = f.positions
  | .variable _ _ | .integer _ | .string _ | .bool _ => rfl
  | .call c => by rw [Factor.landmarks, Factor.positions, c.map_landmarks]
  | .group inner => by rw [Factor.landmarks, Factor.positions, inner.map_landmarks]

theorem Call.map_landmarks : (c : Call) → c.landmarks.map Landmark.position = c.positions
  | ⟨_, args, _⟩ => by
      rw [Call.landmarks, Call.positions, List.map_cons, map_landmarksOfArguments args,
        Landmark.position]

theorem map_landmarksOfArguments :
    (es : List Expression) →
      (landmarksOfArguments es).map Landmark.position = positionsOfArguments es
  | [] => rfl
  | e :: es => by
      rw [landmarksOfArguments, positionsOfArguments, List.map_append, e.map_landmarks,
        map_landmarksOfArguments es]

end

theorem map_landmarksOfOption {α : Type} {landmarks : α → List Landmark}
    {positions : α → List Position} (h : ∀ a, (landmarks a).map Landmark.position = positions a)
    (x : Option α) :
    (landmarksOfOption landmarks x).map Landmark.position = positionsOfOption positions x := by
  cases x with
  | none => rfl
  | some a => exact h a

theorem Declaration.map_landmarks (d : Declaration) :
    d.landmarks.map Landmark.position = d.positions :=
  congrArg (d.position :: ·) d.value.map_landmarks

theorem Declaration.map_headLandmarks (d : Declaration) (loop : Position) :
    (d.headLandmarks loop).map Landmark.position = d.positions :=
  congrArg (d.position :: ·) d.value.map_landmarks

theorem Assignment.map_landmarks (a : Assignment) :
    a.landmarks.map Landmark.position = a.positions :=
  congrArg (a.position :: ·) a.value.map_landmarks

mutual

theorem Statement.map_landmarks :
    (s : Statement) → s.landmarks.map Landmark.position = s.positions
  | .definition d => by rw [Statement.landmarks, Statement.positions, d.map_landmarks]
  | .declaration d => by rw [Statement.landmarks, Statement.positions, d.map_landmarks]
  | .assignment a => by rw [Statement.landmarks, Statement.positions, a.map_landmarks]
  | .conditional c => by rw [Statement.landmarks, Statement.positions, c.map_landmarks]
  | .loop l => by rw [Statement.landmarks, Statement.positions, l.map_landmarks]
  | .call c => by rw [Statement.landmarks, Statement.positions, c.map_landmarks]

theorem Definition.map_landmarks :
    (d : Definition) → d.landmarks.map Landmark.position = d.positions
  | ⟨_, _, body, returns, _⟩ => by
      rw [Definition.landmarks, Definition.positions, List.map_cons, List.map_append,
        map_landmarksOfStatements body, map_landmarksOfOption Expression.map_landmarks,
        Landmark.position]

theorem Conditional.map_landmarks :
    (c : Conditional) → c.landmarks.map Landmark.position = c.positions
  | ⟨condition, body, _⟩ => by
      rw [Conditional.landmarks, Conditional.positions, List.map_cons, List.map_append,
        condition.map_landmarks, map_landmarksOfStatements body, Landmark.position]

theorem Loop.map_landmarks : (l : Loop) → l.landmarks.map Landmark.position = l.positions
  | ⟨init, condition, step, body, position⟩ => by
      simp only [Loop.landmarks, Loop.positions, List.map_cons, List.map_append,
        init.map_headLandmarks, condition.map_landmarks, step.map_landmarks,
        map_landmarksOfStatements body, Landmark.position]

theorem map_landmarksOfStatements :
    (ss : List Statement) →
      (landmarksOfStatements ss).map Landmark.position = positionsOfStatements ss
  | [] => rfl
  | s :: ss => by
      rw [landmarksOfStatements, positionsOfStatements, List.map_append, s.map_landmarks,
        map_landmarksOfStatements ss]

end

theorem Action.map_landmarks (a : Action) :
    a.landmarks.map Landmark.position = a.positions :=
  congrArg (a.position :: ·) (map_landmarksOfStatements a.statements)

theorem Transition.map_landmarks (t : Transition) :
    t.landmarks.map Landmark.position = t.positions :=
  congrArg (t.position :: ·) (map_landmarksOfOption Condition.map_landmarks t.guard)

theorem Node.map_landmarks_actions (n : Node) :
    (n.landmarks .actions).map Landmark.position =
      n.position :: n.actions.flatMap Action.positions := by
  simp only [Node.landmarks, List.map_cons, List.map_flatMap, Action.map_landmarks,
    Landmark.position]

theorem Node.map_landmarks_transitions (n : Node) :
    (n.landmarks .transitions).map Landmark.position =
      n.position :: n.transitions.flatMap Transition.positions := by
  simp only [Node.landmarks, List.map_cons, List.map_flatMap, Transition.map_landmarks,
    Landmark.position]

/-- A position of a node is met on one of the two walks. -/
theorem Node.exists_landmark {n : Node} {p : Position} (h : p ∈ n.positions) :
    ∃ members, ∃ m ∈ n.landmarks members, m.position = p := by
  simp only [← List.mem_map]
  rcases List.mem_cons.mp h with rfl | h
  · exact ⟨.actions, List.mem_cons_self ..⟩
  · rcases List.mem_append.mp h with h | h
    · exact ⟨.actions, n.map_landmarks_actions ▸ List.mem_cons_of_mem _ h⟩
    · exact ⟨.transitions, n.map_landmarks_transitions ▸ List.mem_cons_of_mem _ h⟩

theorem Workflow.exists_landmark {w : Workflow} {p : Position} (h : p ∈ w.positions) :
    ∃ members, ∃ m ∈ w.landmarks members, m.position = p := by
  rcases List.mem_cons.mp h with rfl | h
  · exact ⟨.actions, _, List.mem_cons_self .., rfl⟩
  · obtain ⟨n, hn, hp⟩ := List.mem_flatMap.mp h
    obtain ⟨members, m, hm, rfl⟩ := Node.exists_landmark hp
    exact ⟨members, m, List.mem_cons_of_mem _ (List.mem_flatMap.mpr ⟨n, hn, hm⟩), rfl⟩

/-! ## Whole texts -/

namespace Entry

/-- The walks through a tree. Both walks through a workflow pass by its
nodes, and one goes on into their actions, the other into their
transitions. -/
def walks : (e : Entry) → e.Tree → List (List Landmark)
  | workflow, w => [w.landmarks .actions, w.landmarks .transitions]
  | condition, c => [c.landmarks]
  | script, ss => [landmarksOfStatements ss]

theorem Derives.along {e : Entry} {ts : List Token} {t : e.Tree} (h : e.Derives ts t) :
    ∀ walk ∈ e.walks t, Along ts walk :=
  match e, t, h with
  | workflow, _, h => by
      have hactions := DerivesWorkflow.along h .actions
      have htransitions := DerivesWorkflow.along h .transitions
      simpa only [walks, List.forall_mem_cons] using ⟨hactions, htransitions, by simp⟩
  | condition, _, h => List.forall_mem_singleton.mpr (ExpressionSymbol.Derives.along h)
  | script, _, h => List.forall_mem_singleton.mpr (StatementSymbol.Derives.along h)

theorem exists_landmark (e : Entry) (t : e.Tree) :
    ∀ p ∈ (e.fragment t).positions, ∃ walk ∈ e.walks t, ∃ m ∈ walk, m.position = p :=
  match e, t with
  | workflow, w => fun p hp => by
      obtain ⟨members, hmembers⟩ := Workflow.exists_landmark hp
      refine ⟨w.landmarks members, ?_, hmembers⟩
      cases members <;> simp [walks]
  | condition, c => fun p hp =>
      ⟨c.landmarks, List.mem_singleton_self _, List.mem_map.mp (c.map_landmarks ▸ hp)⟩
  | script, ss => fun p hp =>
      ⟨_, List.mem_singleton_self _, List.mem_map.mp (map_landmarksOfStatements ss ▸ hp)⟩

/-- In a tree that is parsed from a text, each position is that of a token of
the text, the one that stands for the node, and on a walk through the tree
the offsets increase. The walks meet every position of the tree. -/
theorem positions_faithful (e : Entry) (text : String) (t : e.Tree)
    (h : e.parseText text = .ok t) :
    (∀ walk ∈ e.walks t, (∀ m ∈ walk, m.StandsIn (tokenize text)) ∧
        walk.Pairwise fun m n => m.position.offset < n.position.offset) ∧
      ∀ p ∈ (e.fragment t).positions, ∃ walk ∈ e.walks t, ∃ m ∈ walk, m.position = p := by
  obtain ⟨ts, q, hts⟩ := exists_lexes .start text.toList
  obtain ⟨hderives, -⟩ := (parseText_eq_ok_iff hts).mp h
  have hspelled : ∀ t ∈ tokenize text, t.WellSpelled := by
    rw [hts.tokenize_eq]
    exact List.forall_mem_append.mpr ⟨hts.wellSpelled, List.forall_mem_singleton.mpr rfl⟩
  have htokens : ((tokenize text).map Token.position).Pairwise fun p q => p.offset < q.offset :=
    List.pairwise_map.mpr ((tiles_tokenize text).pairwise.imp And.right)
  refine ⟨fun walk hwalk => ?_, e.exists_landmark t⟩
  have halong := (hderives.along walk hwalk).behind [.atEnd q]
  rw [← hts.tokenize_eq] at halong
  have hoffsets : (walk.map Landmark.position).Pairwise fun p q => p.offset < q.offset :=
    htokens.sublist halong.sublist
  refine ⟨halong.standsIn hspelled, ?_⟩
  rwa [List.pairwise_map] at hoffsets

/-- A workflow on one line, with an action behind a transition. The loop
declares its variable without `var`. -/
def loopSource : String :=
  "workflow w state s transition to s if a enter for i = 0; b; i = 1 do end end end end"

/-- What is parsed from it. -/
def loopWorkflow : Workflow :=
  let init := ⟨"i", (Factor.integer "0").toExpression, line 50⟩
  let test := ⟨(Factor.variable "b" (line 57)).toExpression, none⟩
  let step := ⟨"i", (Factor.integer "1").toExpression, line 60⟩
  let action := ⟨.enter, [.loop ⟨init, test, step, [], line 46⟩], line 40⟩
  let transition := ⟨"s", some (Factor.variable "a" (line 38)).toExpression.toCondition, line 19⟩
  ⟨"w", [⟨.state, "s", [action], [transition], line 11⟩], line 0⟩
where
  line (offset : Nat) : Position := ⟨offset, 1, offset + 1⟩

theorem parseText_loopSource : workflow.parseText loopSource = .ok loopWorkflow := rfl

theorem loopWorkflow_positions :
    workflow.parseText loopSource = .ok loopWorkflow ∧
      ∀ m ∈ loopWorkflow.landmarks .actions, m.StandsIn (tokenize loopSource) := by
  have hfaithful := positions_faithful workflow loopSource loopWorkflow parseText_loopSource
  have hwalk := hfaithful.1 (loopWorkflow.landmarks .actions) (List.mem_cons_self ..)
  exact ⟨parseText_loopSource, hwalk.1⟩

end Entry

end WorkflowScript
