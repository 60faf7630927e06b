import WorkflowScript.Proofs.Parser.Reports
import WorkflowScript.Proofs.Workflow.Truncation
import WorkflowScript.Proofs.Workflow.Unambiguity

/-!
# The log of a parse

What is logged of a parse tells the truth about it (`log_faithful`). There is
a warning exactly if the parser gives up at a token that belongs to no class,
and it is about that token: the parser consumes tokens of the grammar only,
so the first other token that is pulled is the last one.

Each node is reported when its `end` has been read. Which nodes these are is
told by the tokens alone: behind the head of the workflow, one sentence of a
node after the other until there is none (`CompleteNodes`). The report of the
workflow comes behind them, if it is read up to its own `end`.
-/

namespace WorkflowScript

open WorkflowScript.Parser

/-! ## Reports of trees -/

def Node.report (n : Node) : Event :=
  .parsedNode n.name n.kind n.actions.length n.transitions.length

def Workflow.report (w : Workflow) : Event := .parsedWorkflow w.name w.nodes.length

def Condition.report (c : Condition) : Event := .parsedCondition c.operands.length

/-- The operands of `or` are the first one and those behind an `or`. -/
theorem Condition.length_operands (c : Condition) : c.operands.length = c.rest.length + 1 := by
  rw [operands, List.length_cons]

namespace Grammar

/-! ## Productions -/

/-- A production is related to itself, whatever the relation. -/
theorem member_related (C : QuietCongruence Scanner Scanner) (n : Nat) :
    C.Rel (member n) (member n) :=
  (quietlyRelated_rulesWithin C n).member

theorem condition_related (C : QuietCongruence Scanner Scanner) (n : Nat) :
    C.Rel (condition n) (condition n) :=
  C.conditionOf (quietlyRelated_rulesWithin C n).factor

theorem script_related (C : QuietCongruence Scanner Scanner) (n : Nat) :
    C.Rel (script n) (script n) :=
  C.repeatUntil (quietlyRelated_rulesWithin C n).statement _

theorem warns_node (n : Nat) : Warns (node n) := by
  have hmember := member_related warning n
  show warning.Rel (node n) (node n)
  exact warning.bind (warning.announced _ _) fun _ => warning.bind (warning.expect _) fun _ =>
    warning.bind (warning.repeatUntil hmember _) fun _ => warning.bind (warning.expect _) fun _ =>
    Warns.notify nofun

theorem warns_nodeOrEnd (n : Nat) : Warns (nodeOrEnd n) := by
  show warning.Rel (nodeOrEnd n) (nodeOrEnd n)
  refine warning.bind warning.peek fun k => ?_
  cases NodeKind.ofKeyword? k with
  | none => exact warning.unexpected _
  | some _ => exact warns_node n

theorem warns_workflow (n : Nat) : Warns (workflow n) := by
  have hnode := warns_nodeOrEnd n
  show warning.Rel (workflow n) (workflow n)
  exact warning.bind (warning.expect _) fun _ => warning.bind (warning.expect _) fun _ =>
    warning.bind (warning.repeatUntil hnode _) fun _ => warning.bind (warning.expect _) fun _ =>
    Warns.notify nofun

theorem reports_node (n : Nat) : Reports (node n) fun nd => [nd.report] :=
  .bind (silence.announced _ _) fun _ => .bind (silence.expect _) fun _ =>
    .bind (silence.repeatUntil (member_related silence n) _) fun _ =>
    .bind (silence.expect _) fun _ => .notify nofun rfl

theorem reports_nodeOrEnd (n : Nat) : Reports (nodeOrEnd n) fun nd => [nd.report] := by
  refine .bind silence.peek fun k => ?_
  cases NodeKind.ofKeyword? k with
  | none => exact fun _ => rfl
  | some _ => exact reports_node n

end Grammar

theorem Entry.warns (e : Entry) : Warns e.parser := by
  show warning.Rel e.parser e.parser
  cases e with
  | workflow => exact warning.toEnd (Grammar.warns_workflow maxNesting)
  | condition =>
      exact warning.bind (warning.toEnd (Grammar.condition_related warning maxNesting))
        fun _ => Warns.notify nofun
  | script => exact Grammar.script_related warning maxNesting

theorem Grammar.reports_conditionToEnd : Reports conditionToEnd fun c => [c.report] :=
  .bind (silence.toEnd (condition_related silence maxNesting)) fun c =>
    .notify nofun (by rw [Condition.report, c.length_operands])

/-! ## Nodes that are complete -/

namespace Grammar

/-- The tokens begin with sentences of the nodes, each behind the other, and
with no further one behind these. -/
inductive CompleteNodes (levels : Nat) : List Token → List Node → Prop
  | stop {ts} :
      (∀ us n, DerivesNode us n → n.nesting ≤ levels → ¬us <+: ts) → CompleteNodes levels ts []
  | node {ts us n ns} :
      DerivesNode ts n → n.nesting ≤ levels → CompleteNodes levels us ns →
      CompleteNodes levels (ts ++ us) (n :: ns)

/-- Which nodes these are, the tokens decide. -/
theorem CompleteNodes.unique {levels : Nat} {ts : List Token} {ns ns' : List Node}
    (h : CompleteNodes levels ts ns) (h' : CompleteNodes levels ts ns')
    (hproper : ∀ x ∈ ts, x.kind ≠ .endOfInput) : ns = ns' := by
  induction h generalizing ns' with
  | stop hstop =>
      cases h' with
      | stop _ => rfl
      | node hn hle _ => exact absurd (List.prefix_append ..) (hstop _ _ hn hle)
  | @node ts us n ns hn hle _ ih =>
      generalize hall : ts ++ us = all at h'
      cases h' with
      | stop hstop => exact absurd (hall ▸ List.prefix_append ..) (hstop _ _ hn hle)
      | @node ts' us' n' ns' hn' hle' hmore =>
          obtain rfl := hn.unique_prefix hn' hall hproper
          obtain rfl := List.append_cancel_left hall
          obtain rfl := unambiguous_node _ _ _ hn hn'
          rw [ih hmore fun x hx => hproper x (List.mem_append_right _ hx)]

/-- The nodes of the workflow that the tokens begin with, as far as they are
complete; none if there is no head of a workflow. -/
inductive WorkflowNodes (levels : Nat) : List Token → List Node → Prop
  | opened {start name ts ns} :
      start.kind = .kwWorkflow → name.kind = .identifier → CompleteNodes levels ts ns →
      WorkflowNodes levels (start :: name :: ts) ns
  | unopened {ts} :
      (∀ start name us, start.kind = .kwWorkflow → name.kind = .identifier →
        ts ≠ start :: name :: us) → WorkflowNodes levels ts []

theorem WorkflowNodes.unique {levels : Nat} {ts : List Token} {ns ns' : List Node}
    (h : WorkflowNodes levels ts ns) (h' : WorkflowNodes levels ts ns')
    (hproper : ∀ x ∈ ts, x.kind ≠ .endOfInput) : ns = ns' := by
  cases h with
  | opened hstart hname hns =>
      cases h' with
      | opened _ _ hns' => exact hns.unique hns' fun x hx => hproper x (by simp [hx])
      | unopened hno => exact absurd rfl (hno _ _ _ hstart hname)
  | unopened hno =>
      cases h' with
      | opened hstart hname _ => exact absurd rfl (hno _ _ _ hstart hname)
      | unopened _ => rfl

/-! ## Reports of workflows -/

section Reports

variable {n : Nat} {c e : Cursor Scanner} {us : List Token}

/-- Where the parser for nodes stops there is no complete node. -/
theorem completeNodes_stop (hc : c.Consumes us e)
    (hstop : ∀ nd d, ¬(nodeOrEnd n).Runs c nd d) : CompleteNodes n us [] := by
  refine .stop fun ts nd hnd hle hprefix => ?_
  obtain ⟨vs, rfl⟩ := hprefix
  obtain ⟨d, hts, -⟩ := Cursor.consumes_append.mp hc
  refine hstop nd d ?_
  rw [nodeOrEnd, nodeOrEndWith, runs_peek_bind, ofKeyword?_nodeKind.mpr (hnd.current_kind hts)]
  exact hnd.runs hle hts

theorem reports_nodes {n : Nat} {c e : Cursor Scanner} {us : List Token} (hc : c.Consumes us e)
    (hend : e.current.kind = .endOfInput) :
    ∃ ns, CompleteNodes n us ns ∧
      (repeatUntil (· = .kwEnd) (nodeOrEnd n) c).reports = ns.map Node.report ∧
      ∀ ns', (repeatUntil (· = .kwEnd) (nodeOrEnd n) c).result = .ok ns' → ns' = ns := by
  have hitem := advancing_nodeOrEnd (σ := Scanner) n
  by_cases hk : c.current.kind = .kwEnd
  · obtain ⟨hreports, hresult⟩ := reports_repeatUntil_stop (· = .kwEnd) hitem (decide_eq_true hk)
    refine ⟨[], completeNodes_stop hc fun nd d hr => ?_, hreports, ?_⟩
    · have hother : ¬c.current.kind ∈ nodeStarts := by
        rw [hk]
        decide
      exact not_runs_unexpected ((runs_congr (nodeOrEnd_apply_other hother)).mp hr)
    · rintro ns' h
      exact (Except.ok.inj (hresult.symm.trans h)).symm
  have hgo : decide (c.current.kind = .kwEnd) = false := decide_eq_false hk
  rcases (nodeOrEnd n).runs_or_fails c with ⟨nd, d, hr⟩ | ⟨err, d, hf⟩
  · obtain ⟨hreports, hresult⟩ := reports_repeatUntil_of_runs (· = .kwEnd) hitem hgo hr
    have hstart : c.current.kind ∈ nodeStarts := by
      by_contra hother
      exact not_runs_unexpected ((runs_congr (nodeOrEnd_apply_other hother)).mp hr)
    obtain ⟨ts, hts, hnd, hle⟩ := (recognises_nodeOrEnd n).runs hstart hr
    obtain ⟨vs, rfl, hvs⟩ := hts.prefix_of_atEnd hc hend
    have hlt := hitem _ _ _ hr
    obtain ⟨ns, hns, hmore, hrest⟩ := reports_nodes hvs hend
    refine ⟨nd :: ns, .node hnd hle hns, ?_, ?_⟩
    · rw [hreports, (reports_nodeOrEnd n).of_runs hr, hmore]
      rfl
    · intro ns' h
      rw [hresult] at h
      cases hloop : (repeatUntil (· = .kwEnd) (nodeOrEnd n) d).result with
      | error _ =>
          rw [hloop] at h
          cases h
      | ok rest =>
          rw [hloop] at h
          rw [← hrest rest hloop]
          exact (Except.ok.inj h).symm
  · obtain ⟨hreports, hresult⟩ := reports_repeatUntil_of_fails (· = .kwEnd) hitem hgo hf
    refine ⟨[], completeNodes_stop hc fun nd d' hr => ?_, ?_, ?_⟩
    · have hresult := (fails_iff.mp hf).1
      rw [(runs_iff.mp hr).1] at hresult
      cases hresult
    · rw [hreports, (reports_nodeOrEnd n).of_fails hf]
      rfl
    · intro ns' h
      rw [hresult] at h
      cases h
termination_by c.size

/-- What stands behind the nodes of a workflow. -/
def workflowEnd (start name : Token) (ns : List Node) : Parser Scanner Workflow := do
  let _ ← expect .kwEnd
  notify (.parsedWorkflow name.text ns.length)
  pure ⟨name.text, ns, start.position⟩

/-- What stands behind the head of a workflow. -/
def workflowRest (levels : Nat) (start name : Token) : Parser Scanner Workflow :=
  repeatUntil (· = .kwEnd) (nodeOrEnd levels) >>= workflowEnd start name

theorem reports_workflowEnd (start name : Token) (ns : List Node) :
    Reports (workflowEnd start name ns) fun w => [w.report] :=
  .bind (silence.expect _) fun _ => .notify nofun rfl

theorem nodes_of_workflowEnd {start name : Token} {ns : List Node} {w : Workflow}
    (h : (workflowEnd start name ns c).result = .ok w) : w.nodes = ns := by
  obtain ⟨_, hw⟩ := runs_expect_bind.mp (runs_iff.mpr ⟨h, rfl⟩)
  obtain ⟨_, _, _, hw⟩ := runs_bind.mp hw
  rw [(runs_pure.mp hw).1]

/-- With its head a workflow reports what stands behind it. -/
theorem workflow_opened (hstart : c.current.kind = .kwWorkflow)
    (hname : c.advance.current.kind = .identifier) :
    (workflow n c).reports =
        (workflowRest n c.current c.advance.current c.advance.advance).reports ∧
      (workflow n c).result =
        (workflowRest n c.current c.advance.current c.advance.advance).result := by
  obtain ⟨hreports, hresult⟩ := (silence.expect .kwWorkflow).bind_of_runs
    (runs_expect.mpr ⟨hstart, rfl, rfl⟩) (f := fun start => expect .identifier >>=
      workflowRest n start)
  obtain ⟨hreports', hresult'⟩ := (silence.expect .identifier).bind_of_runs
    (runs_expect.mpr ⟨hname, rfl, rfl⟩) (f := workflowRest n c.current)
  exact ⟨hreports.trans hreports', hresult.trans hresult'⟩

/-- Without its head nothing of a workflow is read. -/
theorem workflow_unopened
    (h : ¬(c.current.kind = .kwWorkflow ∧ c.advance.current.kind = .identifier)) :
    (workflow n c).reports = [] ∧ ∃ err, (workflow n c).result = .error err := by
  rw [workflow, workflowWith]
  by_cases hstart : c.current.kind = .kwWorkflow
  · have hname : c.advance.current.kind ≠ .identifier := fun hname => h ⟨hstart, hname⟩
    have hruns := runs_expect.mpr ⟨hstart, rfl, rfl⟩
    have hfails := fails_expect.mpr ⟨hname, rfl, rfl⟩
    rw [((silence.expect _).bind_of_runs hruns).1, ((silence.expect _).bind_of_runs hruns).2,
      ((silence.expect _).bind_of_fails hfails).1, ((silence.expect _).bind_of_fails hfails).2]
    exact ⟨rfl, _, rfl⟩
  · have hfails := fails_expect.mpr ⟨hstart, rfl, rfl⟩
    rw [((silence.expect _).bind_of_fails hfails).1, ((silence.expect _).bind_of_fails hfails).2]
    exact ⟨rfl, _, rfl⟩

/-- A workflow reports its complete nodes, and itself behind them. -/
theorem reports_workflow (hc : c.Consumes us e) (hend : e.current.kind = .endOfInput) :
    ∃ ns, WorkflowNodes n us ns ∧
      (workflow n c).reports = ns.map Node.report ++
        onSuccess (fun w => [w.report]) (workflow n c).result ∧
      ∀ w, (workflow n c).result = .ok w → w.nodes = ns := by
  by_cases hopened : c.current.kind = .kwWorkflow ∧ c.advance.current.kind = .identifier
  · obtain ⟨hstart, hname⟩ := hopened
    have hhead : c.Consumes [c.current, c.advance.current] c.advance.advance :=
      ⟨rfl, by rw [hstart]; nofun, rfl, by rw [hname]; nofun, rfl⟩
    obtain ⟨ts, rfl, hrest⟩ := hhead.prefix_of_atEnd hc hend
    obtain ⟨ns, hns, hreports, hresult⟩ := reports_nodes (n := n) hrest hend
    refine ⟨ns, .opened hstart hname hns, ?_⟩
    rw [(workflow_opened hstart hname).1, (workflow_opened hstart hname).2, workflowRest]
    rcases (repeatUntil (· = .kwEnd) (nodeOrEnd n)).runs_or_fails c.advance.advance with
      ⟨ns', d, hr⟩ | ⟨err, d, hf⟩
    · obtain rfl := hresult ns' (runs_iff.mp hr).1
      rw [(reports_bind_of_runs hr).1, (reports_bind_of_runs hr).2, hreports]
      exact ⟨congrArg _ (reports_workflowEnd _ _ ns' d), fun w => nodes_of_workflowEnd⟩
    · rw [(reports_bind_of_fails hf).1, (reports_bind_of_fails hf).2, hreports]
      exact ⟨(List.append_nil _).symm, nofun⟩
  · obtain ⟨hreports, err, hresult⟩ := workflow_unopened (n := n) hopened
    refine ⟨[], .unopened ?_, ?_, ?_⟩
    · rintro start name ts hstart hname rfl
      obtain ⟨rfl, -, rfl, -, -⟩ := hc
      exact hopened ⟨hstart, hname⟩
    · rw [hreports, hresult]
      rfl
    · rw [hresult]
      nofun

end Reports

end Grammar

/-! ## Logs of texts -/

namespace Entry

/-- What parsing a whole text comes to, its log included. -/
def textOutcome : (e : Entry) → String → Outcome Scanner e.Tree
  | workflow => parseWorkflow
  | condition => parseCondition
  | script => parseScript

theorem textOutcome_result (e : Entry) (text : String) :
    (e.textOutcome text).result = e.parseText text := by
  cases e <;> rfl

theorem textOutcome_eq (e : Entry) (text : String) :
    e.textOutcome text =
      (e.parser (Cursor.ofSource (Scanner.ofText text))).after
        (TokenSource.notices Scanner (Cursor.ofSource (Scanner.ofText text)).current) := by
  cases e <;> rfl

theorem flatMap_notices_of_proper {ts : List Token} (h : ∀ t ∈ ts, t.Proper) :
    ts.flatMap (TokenSource.notices Scanner) = [] :=
  List.flatMap_eq_nil_iff.mpr fun t ht => Scanner.notices_of_ne (h t ht).1

/-- The warnings are about what has been consumed and the token behind it. -/
theorem warnings_textOutcome {e : Entry} {text : String} {ts : List Token} {d : Cursor Scanner}
    (hts : (Cursor.ofSource (Scanner.ofText text)).Consumes ts d) (hproper : ∀ t ∈ ts, t.Proper) :
    (e.textOutcome text).warnings ++
        (e.parser (Cursor.ofSource (Scanner.ofText text))).cursor.pending =
      TokenSource.notices Scanner d.current ++ d.pending := by
  rw [textOutcome_eq, Outcome.warnings_after, Scanner.filter_notices, List.append_assoc, e.warns,
    hts.pending_eq, flatMap_notices_of_proper hproper, List.nil_append]

theorem warnings_of_ok {e : Entry} {text : String} {t : e.Tree} (h : e.parseText text = .ok t) :
    (e.textOutcome text).warnings = [] := by
  obtain ⟨ts, q, hts⟩ := exists_lexes .start text.toList
  obtain ⟨hderives, -⟩ := (parseText_eq_ok_iff hts).mp h
  obtain ⟨d, hd, hend⟩ := hts.consumes
  have hkind : d.current.kind = .endOfInput := by rw [hend]; rfl
  have hwarnings := warnings_textOutcome (e := e) hd hderives.proper
  rw [Scanner.notices_of_ne (by rw [hkind]; nofun),
    Cursor.pending_of_atEnd (hd.rest_of_atEnd hkind)] at hwarnings
  exact (List.append_eq_nil_iff.mp hwarnings).1

theorem warnings_of_error {e : Entry} {text : String} {err : ParseError}
    (h : e.parseText text = .error err) :
    (e.textOutcome text).warnings = TokenSource.notices Scanner err.token := by
  rw [parseText_eq_result] at h
  obtain ⟨p, hp, htoken, ⟨us, t, hderives, -⟩, -, -⟩ := behind_of_fails (fails_iff.mpr ⟨h, rfl⟩)
  have hproper : ∀ x ∈ p, x.Proper := fun x hx => hderives.proper x (List.mem_append_left _ hx)
  rw [htoken]
  exact List.append_cancel_right (warnings_textOutcome hp hproper)

end Entry

/-! ## The log -/

/-- A workflow text reports its complete nodes and, if the workflow is read up
to its own `end`, the workflow; whether anything stands behind it does not
count. -/
theorem reports_parseWorkflow (text : String) :
    ∃ ns, (∀ ns', Grammar.WorkflowNodes maxNesting (lexemes text) ns' ↔ ns' = ns) ∧
      (parseWorkflow text).reports = ns.map Node.report ++
        onSuccess (fun w => [w.report])
          ((Grammar.workflow maxNesting).run (Scanner.ofText text)).result ∧
      ∀ w, ((Grammar.workflow maxNesting).run (Scanner.ofText text)).result = .ok w →
        w.nodes = ns := by
  obtain ⟨ts, q, hts⟩ := exists_lexes .start text.toList
  obtain ⟨d, hd, hend⟩ := hts.consumes
  obtain ⟨ns, hns, hreports, hresult⟩ :=
    Grammar.reports_workflow (n := maxNesting) hd (by rw [hend]; rfl)
  rw [hts.lexemes_eq, run_result, parseWorkflow, reports_run, reports_toEnd]
  exact ⟨ns, fun ns' => ⟨fun h => h.unique hns hts.kind_ne, fun h => h ▸ hns⟩, hreports, hresult⟩

theorem events_parseWorkflow {text : String} {w : Workflow}
    (h : (parseWorkflow text).result = .ok w) :
    (parseWorkflow text).events = w.nodes.map Node.report ++ [w.report] := by
  obtain ⟨ns, -, hreports, hnodes⟩ := reports_parseWorkflow text
  have hw : ((Grammar.workflow maxNesting).run (Scanner.ofText text)).result = .ok w := by
    obtain ⟨d, hr⟩ := (Entry.parseText_eq_ok (e := .workflow)).mp h
    obtain ⟨d, hr, -⟩ := Entry.runs_toEnd.mp hr
    rw [run_result]
    exact (runs_iff.mp hr).1
  have hwarnings : (parseWorkflow text).warnings = [] := Entry.warnings_of_ok (e := .workflow) h
  rw [Outcome.events_eq_reports hwarnings, hreports, hw, hnodes w hw, onSuccess]

/-- The log tells the truth about a parse.

A text is warned of exactly if the parser gives up at a token of no class,
once, about that token. All else in the log is this. For a workflow text: its
complete nodes in their order and behind them the workflow, which is reported
exactly if it has been read, with these nodes. For a condition: the condition,
if it goes up to the end of the text. For a script: nothing. -/
theorem log_faithful (text : String) :
    (∀ e : Entry, (e.textOutcome text).warnings =
      match (e.textOutcome text).result with
      | .ok _ => []
      | .error err =>
        if err.token.kind = .invalid then [.unrecognisedInput err.token.position err.token.text]
        else []) ∧
    (∃ ns, (∀ ns', Grammar.WorkflowNodes maxNesting (lexemes text) ns' ↔ ns' = ns) ∧
      (parseWorkflow text).reports = ns.map Node.report ++
        onSuccess (fun w => [w.report])
          ((Grammar.workflow maxNesting).run (Scanner.ofText text)).result ∧
      ∀ w, ((Grammar.workflow maxNesting).run (Scanner.ofText text)).result = .ok w →
        w.nodes = ns) ∧
    (∀ w, (parseWorkflow text).result = .ok w →
      (parseWorkflow text).events = w.nodes.map Node.report ++ [w.report]) ∧
    (parseCondition text).reports = onSuccess (fun c => [c.report]) (parseCondition text).result ∧
    (parseScript text).reports = [] := by
  refine ⟨fun e => ?_, reports_parseWorkflow text, fun w => events_parseWorkflow, ?_, ?_⟩
  · cases hresult : (e.textOutcome text).result with
    | ok t => exact Entry.warnings_of_ok ((e.textOutcome_result text).symm.trans hresult)
    | error err => exact Entry.warnings_of_error ((e.textOutcome_result text).symm.trans hresult)
  · rw [parseCondition, reports_run, run_result]
    exact Grammar.reports_conditionToEnd _
  · rw [parseScript, reports_run]
    exact reports_of_silent (Grammar.script_related silence maxNesting) _

/-- What stands behind a workflow makes the parse fail and is not noticed
before the workflow is reported. A token of no class is noticed as soon as
the one in front of it has been read, here the `end` of the node. -/
example :
    let shown (event : Event) := (event.level, event.message, event.fields)
    (parseWorkflow "workflow w node n enter x = 1 end end end x").events.map shown =
      [(.trace, "parsed node",
          [("node", .text "n"), ("kind", .text "node"), ("actions", .count 1),
            ("transitions", .count 0)]),
        (.debug, "parsed workflow", [("workflow", .text "w"), ("nodes", .count 1)])] ∧
    (parseWorkflow "workflow w state s end $").events.map shown =
      [(.warn, "unrecognised input", [("position", .text "1:24"), ("text", .text "$")]),
        (.trace, "parsed node",
          [("node", .text "s"), ("kind", .text "state"), ("actions", .count 0),
            ("transitions", .count 0)])] ∧
    (parseCondition "a and b or not c").events.map shown =
      [(.debug, "parsed condition", [("terms", .count 2)])] := by
  exact ⟨rfl, rfl, rfl⟩

end WorkflowScript
