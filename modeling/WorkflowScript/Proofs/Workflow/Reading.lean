import WorkflowScript.Proofs.Statement.Reading
import WorkflowScript.Proofs.Workflow.Spelling
import WorkflowScript.Workflow.Positions
import WorkflowScript.Workflow.Print

/-!
# Reading printed workflows

Scripts and workflows are printed in lines. A line is read by itself, since
what ends it is a blank. A node that has mixed its actions and transitions
is printed with the actions first, which is a sentence for the same node.
-/

namespace WorkflowScript

open WorkflowScript.Lexical WorkflowScript.Grammar

/-! ## Lines -/

/-- Tokens of which `P` holds for one item after the other. -/
def Each {α : Type} (P : α → List Token → Prop) : List α → List Token → Prop
  | [] => (· = [])
  | x :: xs => Followed (P x) (Each P xs)

theorem reads_joinLines {α : Type} {print : α → String} {P : α → List Token → Prop}
    {items : List α} (h : ∀ x ∈ items, ∀ more, Reads (print x) more (P x)) (more : List Char) :
    Reads (joinLines print items) more (Each P items) := by
  induction items with
  | nil => exact .blank rfl
  | cons x xs ih =>
      obtain ⟨hx, hxs⟩ := List.forall_mem_cons.mp h
      have hjoin : joinLines print (x :: xs) = print x ++ joinLines print xs := by
        simp [joinLines, String.join_cons]
      rw [hjoin]
      exact (hx _).append (ih hxs)

/-! ## Scripts -/

theorem statements_yields_of_each {ss : List Statement} {ts : List Token}
    (h : Each StatementSymbol.statement.Yields ss ts) :
    StatementSymbol.statements.Yields ss ts := by
  induction ss generalizing ts with
  | nil => exact ⟨[], h ▸ .nil, rfl⟩
  | cons s ss ih =>
      obtain ⟨us, vs, rfl, ⟨s', hs, hes⟩, hvs⟩ := h
      obtain ⟨ss', hss, hess⟩ := ih hvs
      exact ⟨s' :: ss', .cons hs hss, by simp_all [StatementSymbol.erase, mapStatements]⟩

theorem wellSpelled_of_mem {ss : List Statement} (h : WellSpelledStatements ss) :
    ∀ s ∈ ss, s.WellSpelled := by
  induction ss with
  | nil => simp
  | cons s ss ih => exact List.forall_mem_cons.mpr ⟨h.1, ih h.2⟩

theorem reads_statementLine {s : Statement} (h : s.WellSpelled) (more : List Char) :
    Reads (printStatementLine s) more (StatementSymbol.statement.Yields s) := by
  have hindent {rest} : Reads "      " rest (· = []) := .blank rfl
  have happart : isApart ("\n".toList ++ more) := rfl
  have hstatement := s.reads h happart
  have hfeed : Reads "\n" more (· = []) := .blank rfl
  rw [printStatementLine]
  refine ((hindent.append hstatement).append hfeed).mono fun _ hts => ?_
  obtain ⟨_, _, rfl, ⟨_, us, rfl, rfl, hus⟩, rfl⟩ := hts
  simpa using hus

/-- The statements of a script, each on a line. -/
theorem reads_script {ss : List Statement} (h : WellSpelledStatements ss) :
    Reads (printScript ss) [] (StatementSymbol.statements.Yields ss) := by
  refine Reads.mono ?_ fun _ => statements_yields_of_each
  have hall := wellSpelled_of_mem h
  clear h
  unfold printScript
  induction ss with
  | nil => exact .blank rfl
  | cons s ss ih =>
      obtain ⟨hs, hss⟩ := List.forall_mem_cons.mp hall
      cases ss with
      | nil =>
          have hend : isApart [] := rfl
          have hread := s.reads hs hend
          simp only [List.map_cons, List.map_nil, String.intercalate_singleton]
          exact hread.mono fun ts hts => ⟨ts, [], by simp, hts, rfl⟩
      | cons s' ss =>
          have hrest := ih hss
          have hfeed {rest} : Reads "\n" rest (· = []) := .blank rfl
          rw [List.map_cons] at hrest ⊢
          rw [List.map_cons, String.intercalate_cons_cons]
          have happart : isApart ("\n".toList ++
              (("\n".intercalate (s'.print :: ss.map Statement.print)).toList ++ [])) := rfl
          have hfirst := s.reads hs happart
          refine ((hfirst.append hfeed).append hrest).mono fun _ hts => ?_
          obtain ⟨_, vs, rfl, ⟨us, _, rfl, hus, rfl⟩, hvs⟩ := hts
          exact ⟨us, vs, by simp, hus, hvs⟩

/-! ## Workflows -/

theorem Action.reads {a : Action} (h : a.WellSpelled) (more : List Char) :
    Reads a.print more (Yields DerivesAction (mapPositions fun _ => .start) a) := by
  have hstart {rest} : Reads ("    " ++ a.phase.keyword ++ "\n") rest
      (OneToken a.phase.kind a.phase.keyword) :=
    .padded "    " a.phase.keyword "\n" rfl a.phase.spelling?_kind rfl rfl _
  have hlines := reads_joinLines (fun s hs => reads_statementLine (wellSpelled_of_mem h s hs))
    ("    end\n".toList ++ more)
  have hend : Reads "    end\n" more (OneToken .kwEnd "end") :=
    .padded "    " "end" "\n" rfl rfl rfl rfl _
  rw [Action.print]
  refine ((hstart.append hlines).append hend).mono fun _ hts => ?_
  obtain ⟨_, _, rfl, ⟨_, us, rfl, ⟨p, rfl⟩, hus⟩, q, rfl⟩ := hts
  obtain ⟨ss, hss, hess⟩ := statements_yields_of_each hus
  exact ⟨⟨a.phase, ss, p⟩, .action rfl hss rfl,
    by simp_all [StatementSymbol.erase, mapPositions]⟩

theorem reads_guard {guard : Option Condition} (h : ∀ c ∈ guard, c.WellSpelled)
    {more : List Char} (hmore : isApart more) :
    Reads (printGuard guard) more
      (Yields DerivesGuard (Option.map (Condition.mapPositions fun _ => .start)) guard) := by
  cases guard with
  | none => exact .mono (.blank rfl) fun _ hts => ⟨none, hts ▸ .none, rfl⟩
  | some c =>
      have hif : Reads " if " (c.print.toList ++ more) (OneToken .kwIf "if") :=
        .padded " " "if" " " rfl rfl rfl rfl _
      refine (hif.append (c.reads (h c rfl) hmore)).mono fun _ hts => ?_
      obtain ⟨_, us, rfl, ⟨p, rfl⟩, c', hc, hec⟩ := hts
      exact ⟨some c', .some rfl hc, congrArg some hec⟩

theorem Transition.reads {t : Transition} (h : t.WellSpelled) (more : List Char) :
    Reads t.print more (Yields DerivesTransition (mapPositions fun _ => .start) t) := by
  have hstart {rest} : Reads "    transition " rest (OneToken .kwTransition "transition") :=
    .padded "    " "transition" " " rfl rfl rfl rfl _
  have hto {rest} : Reads "to " rest (OneToken .kwTo "to") :=
    .padded "" "to" " " rfl rfl rfl rfl _
  have hfeed : isApart ("\n".toList ++ more) := rfl
  have hblank : Reads "\n" more (· = []) := .blank rfl
  have happart : isApart ((printGuard t.guard).toList ++ ("\n".toList ++ more)) := by
    cases t.guard with
    | none => exact hfeed
    | some c =>
        simp only [printGuard, String.toList_append, List.append_assoc]
        rfl
  have htarget := Reads.name h.1 happart
  have hguard := reads_guard h.2 hfeed
  have hprint : t.print =
      "    transition " ++ "to " ++ t.target ++ printGuard t.guard ++ "\n" := rfl
  rw [hprint]
  refine (((((hstart.append hto).append htarget).append hguard).append hblank)).mono fun _ hts => ?_
  obtain ⟨_, _, rfl, ⟨_, us, rfl, ⟨_, _, rfl, ⟨_, _, rfl, ⟨p, rfl⟩, q, rfl⟩, r, rfl⟩, g, hg,
    heg⟩, rfl⟩ := hts
  exact ⟨⟨t.target, g, p⟩, by simpa using .transition rfl rfl rfl hg, by simp_all [mapPositions]⟩

theorem transitions_of_each {trs : List Transition} {ts : List Token}
    (h : Each (fun t => Yields DerivesTransition (Transition.mapPositions fun _ => .start) t)
      trs ts) :
    ∃ trs', DerivesMembers ts [] trs' ∧
      trs'.map (Transition.mapPositions fun _ => .start) =
        trs.map (Transition.mapPositions fun _ => .start) := by
  induction trs generalizing ts with
  | nil =>
      obtain rfl := h
      exact ⟨[], .nil, rfl⟩
  | cons t trs ih =>
      obtain ⟨us, vs, rfl, ⟨t', ht, het⟩, hvs⟩ := h
      obtain ⟨trs', hmembers, htrs⟩ := ih hvs
      exact ⟨t' :: trs', .transition ht hmembers, by simp [het, htrs]⟩

/-- Actions can stand in front of any members of a node. -/
theorem actions_of_each {as : List Action} {trs : List Transition} {ts us : List Token}
    (has : Each (fun a => Yields DerivesAction (Action.mapPositions fun _ => .start) a) as ts)
    (htrs : DerivesMembers us [] trs) :
    ∃ as', DerivesMembers (ts ++ us) as' trs ∧
      as'.map (Action.mapPositions fun _ => .start) =
        as.map (Action.mapPositions fun _ => .start) := by
  induction as generalizing ts with
  | nil =>
      obtain rfl := has
      exact ⟨[], htrs, rfl⟩
  | cons a as ih =>
      obtain ⟨vs, ws, rfl, ⟨a', ha, hea⟩, hws⟩ := has
      obtain ⟨as', hmembers, has'⟩ := ih hws
      refine ⟨a' :: as', ?_, by simp [hea, has']⟩
      rw [List.append_assoc]
      exact .action ha hmembers

theorem Node.reads {n : Node} (h : n.WellSpelled) (more : List Char) :
    Reads n.print more (Yields DerivesNode (mapPositions fun _ => .start) n) := by
  obtain ⟨hname, hactions, htransitions⟩ := h
  have hstart {rest} : Reads ("  " ++ n.kind.keyword ++ " ") rest
      (OneToken n.kind.kind n.kind.keyword) :=
    .padded "  " n.kind.keyword " " rfl n.kind.spelling?_kind rfl rfl _
  have happart (rest) : isApart ("\n".toList ++ rest) := rfl
  have hreadsName {rest} := Reads.name hname (happart rest)
  have hfeed {rest} : Reads "\n" rest (· = []) := .blank rfl
  have hreadsTransitions := reads_joinLines (fun t ht => Transition.reads (htransitions t ht))
    ("  end\n".toList ++ more)
  have hreadsActions := reads_joinLines (fun a ha => Action.reads (hactions a ha))
    ((joinLines Transition.print n.transitions).toList ++ ("  end\n".toList ++ more))
  have hend : Reads "  end\n" more (OneToken .kwEnd "end") :=
    .padded "  " "end" "\n" rfl rfl rfl rfl _
  rw [Node.print]
  refine (((((hstart.append hreadsName).append hfeed).append hreadsActions).append
    hreadsTransitions).append hend).mono fun _ hts => ?_
  obtain ⟨_, _, rfl, ⟨_, us, rfl, ⟨_, ts, rfl, ⟨_, _, rfl, ⟨_, _, rfl, ⟨p, rfl⟩, q, rfl⟩, rfl⟩,
    hts⟩, hus⟩, r, rfl⟩ := hts
  obtain ⟨trs, hmembers, htrs⟩ := transitions_of_each hus
  obtain ⟨as, hmembers, has⟩ := actions_of_each hts hmembers
  refine ⟨⟨n.kind, n.name, as, trs, p⟩, ?_, by simp_all [mapPositions]⟩
  simpa using DerivesNode.node rfl rfl hmembers rfl

theorem nodes_of_each {ns : List Node} {ts : List Token}
    (h : Each (fun n => Yields DerivesNode (Node.mapPositions fun _ => .start) n) ns ts) :
    ∃ ns', DerivesNodes ts ns' ∧
      ns'.map (Node.mapPositions fun _ => .start) = ns.map (Node.mapPositions fun _ => .start) := by
  induction ns generalizing ts with
  | nil =>
      obtain rfl := h
      exact ⟨[], .nil, rfl⟩
  | cons n ns ih =>
      obtain ⟨us, vs, rfl, ⟨n', hn, hen⟩, hvs⟩ := h
      obtain ⟨ns', hns, hens⟩ := ih hvs
      exact ⟨n' :: ns', .cons hn hns, by simp [hen, hens]⟩

theorem Workflow.reads {w : Workflow} (h : w.WellSpelled) :
    Reads w.print [] (Yields DerivesWorkflow (mapPositions fun _ => .start) w) := by
  obtain ⟨hname, hnodes⟩ := h
  have hstart {rest} : Reads "workflow " rest (OneToken .kwWorkflow "workflow") :=
    .padded "" "workflow" " " rfl rfl rfl rfl _
  have happart (rest) : isApart ("\n".toList ++ rest) := rfl
  have hreadsName {rest} := Reads.name hname (happart rest)
  have hfeed {rest} : Reads "\n" rest (· = []) := .blank rfl
  have hreadsNodes := reads_joinLines (fun n hn => Node.reads (hnodes n hn)) ("end\n".toList ++ [])
  have hend : Reads "end\n" [] (OneToken .kwEnd "end") :=
    .padded "" "end" "\n" rfl rfl rfl rfl _
  rw [Workflow.print]
  refine ((((hstart.append hreadsName).append hfeed).append hreadsNodes).append hend).mono fun _ hts => ?_
  obtain ⟨_, _, rfl, ⟨_, ts, rfl, ⟨_, _, rfl, ⟨_, _, rfl, ⟨p, rfl⟩, q, rfl⟩, rfl⟩, hts⟩, r, rfl⟩ := hts
  obtain ⟨ns, hns, hens⟩ := nodes_of_each hts
  refine ⟨⟨w.name, ns, p⟩, ?_, by simp_all [mapPositions]⟩
  simpa using DerivesWorkflow.workflow rfl rfl hns rfl

end WorkflowScript
