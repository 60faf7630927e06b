import WorkflowScript.Proofs.Token.Lexing
import WorkflowScript.Proofs.Transform.Agreement
import WorkflowScript.Proofs.Workflow.Acceptance
import WorkflowScript.Proofs.Workflow.Positions
import WorkflowScript.Proofs.Workflow.Reading

/-!
# Printing and parsing are inverse

A tree is well formed if its names and literals are spelled as such and it
fits into the levels of nesting. The parsers of whole texts return such
trees only, and each of them is returned, up to positions, for its own
printed form (`Entry.parse_print_inverse`).
-/

namespace WorkflowScript

/-! ## Texts as token sequences -/

/-- A text that is read to its end is followed by the end of the input. -/
theorem Reads.toEnd {text : String} {P : List Token → Prop} (h : Reads text [] P) :
    ∃ ts c, (Cursor.ofSource (Scanner.ofText text)).Consumes ts c ∧
      c.current.kind = .endOfInput ∧ P ts := by
  obtain ⟨ts, q, hts, hP⟩ := h .start
  rw [List.append_nil] at hts
  exact ⟨ts, _, hts, rfl, hP⟩

/-- Positions do not count for the levels of a fragment. -/
theorem Fragment.nesting_erasePositions (f : Fragment) : f.erasePositions.nesting = f.nesting := by
  cases f <;> simp [erasePositions, mapPositions, nesting]

namespace Entry

/-! ## Whole texts -/

/-- The tree or the error for a whole text. -/
def parseText : (e : Entry) → String → Except ParseError e.Tree
  | workflow, text => (parseWorkflow text).result
  | condition, text => (parseCondition text).result
  | script, text => (parseScript text).result

/-- The tree as a fragment, to be printed and compared. -/
def fragment : (e : Entry) → e.Tree → Fragment
  | workflow => .workflow
  | condition => .condition
  | script => .script

/-- A text is parsed from its first token on. -/
theorem parseText_eq_result (e : Entry) (text : String) :
    e.parseText text = (e.parser (Cursor.ofSource (Scanner.ofText text))).result := by
  have hrun : e.parseText text = (e.parser.run (Scanner.ofText text)).result := by
    cases e <;> rfl
  rw [hrun, Parser.run, Outcome.after]

theorem parseText_eq_ok {e : Entry} {text : String} {t : e.Tree} :
    e.parseText text = .ok t ↔ ∃ d, e.parser.Runs (Cursor.ofSource (Scanner.ofText text)) t d := by
  rw [parseText_eq_result]
  constructor
  · exact fun h => ⟨_, Parser.runs_iff.mpr ⟨h, rfl⟩⟩
  · rintro ⟨d, h⟩
    exact (Parser.runs_iff.mp h).1

/-- What a text lexes as decides whether it is accepted. -/
theorem parseText_eq_ok_iff {e : Entry} {text : String} {ts : List Token} {p : Position}
    {t : e.Tree} (h : Lexes .start text.toList ts p) :
    e.parseText text = .ok t ↔ e.Derives ts t ∧ e.nesting t ≤ maxNesting := by
  obtain ⟨c, hc, hp⟩ := h.consumes
  exact parseText_eq_ok.trans (runs_iff_derives e hc (by rw [hp]; rfl))

/-! ## Well-formed trees -/

def WellSpelled : (e : Entry) → e.Tree → Prop
  | workflow => Workflow.WellSpelled
  | condition => Condition.WellSpelled
  | script => WellSpelledStatements

/-- Spelled as the scanner demands, and no deeper than the parser goes. -/
def WellFormed (e : Entry) (t : e.Tree) : Prop := e.WellSpelled t ∧ e.nesting t ≤ maxNesting

theorem Derives.wellSpelled {e : Entry} {ts : List Token} {t : e.Tree} (h : e.Derives ts t)
    (hts : ∀ x ∈ ts, x.WellSpelled) : e.WellSpelled t :=
  match e, t, h with
  | workflow, _, h => Grammar.DerivesWorkflow.wellSpelled h hts
  | condition, _, h => Grammar.ExpressionSymbol.Derives.wellSpelled h hts
  | script, _, h => Grammar.StatementSymbol.Derives.wellSpelled h hts

theorem nesting_fragment (e : Entry) (t : e.Tree) : (e.fragment t).nesting = e.nesting t := by
  cases e <;> rfl

/-- Trees that are the same up to positions need the same levels. -/
theorem nesting_eq_of_erasePositions_eq {e : Entry} {t t' : e.Tree}
    (h : (e.fragment t').erasePositions = (e.fragment t).erasePositions) :
    e.nesting t' = e.nesting t := by
  rw [← nesting_fragment, ← nesting_fragment, ← Fragment.nesting_erasePositions,
    ← Fragment.nesting_erasePositions (e.fragment t), h]

/-! ## The round trip -/

/-- The printed form of a well-spelled tree is a sentence for the tree. -/
theorem reads_print (e : Entry) {t : e.Tree} (h : e.WellSpelled t) :
    Reads (e.fragment t).print [] fun ts =>
      ∃ t', e.Derives ts t' ∧ (e.fragment t').erasePositions = (e.fragment t).erasePositions :=
  match e, t, h with
  | workflow, _, h => (Workflow.reads h).mono fun _ hts => by
      obtain ⟨w, hw, herase⟩ := hts
      exact ⟨w, hw, congrArg Fragment.workflow herase⟩
  | condition, c, h => (c.reads h (show Lexical.isApart [] from rfl)).mono fun _ hts => by
      obtain ⟨c', hc, herase⟩ := hts
      exact ⟨c', hc, congrArg Fragment.condition herase⟩
  | script, _, h => (reads_script h).mono fun _ hts => by
      obtain ⟨ss, hss, herase⟩ := hts
      exact ⟨ss, hss, congrArg Fragment.script herase⟩

theorem wellFormed_of_parseText {e : Entry} {text : String} {t : e.Tree}
    (h : e.parseText text = .ok t) : e.WellFormed t := by
  obtain ⟨ts, p, hts⟩ := exists_lexes .start text.toList
  obtain ⟨hderives, hn⟩ := (parseText_eq_ok_iff hts).mp h
  exact ⟨hderives.wellSpelled hts.wellSpelled, hn⟩

theorem parseText_print {e : Entry} {t : e.Tree} (h : e.WellFormed t) :
    ∃ t', e.parseText (e.fragment t).print = .ok t' ∧
      (e.fragment t').erasePositions = (e.fragment t).erasePositions := by
  obtain ⟨ts, c, hts, hend, t', hderives, herase⟩ := (e.reads_print h.1).toEnd
  have hn : e.nesting t' ≤ maxNesting := by
    rw [nesting_eq_of_erasePositions_eq herase]
    exact h.2
  exact ⟨t', parseText_eq_ok.mpr ((runs_iff_derives e hts hend).mpr ⟨hderives, hn⟩), herase⟩

/-- Whatever a parser of whole texts returns is well formed. For every
well-formed tree the identity transformer prints a text, and the parser
returns the same tree for it, up to positions. -/
theorem parse_print_inverse (e : Entry) :
    (∀ text t, e.parseText text = .ok t → e.WellFormed t) ∧
      ∀ t, e.WellFormed t → ∃ text t',
        (e.fragment t).reprint = some ⟨e.fragment t, text, ()⟩ ∧ e.parseText text = .ok t' ∧
          (e.fragment t').erasePositions = (e.fragment t).erasePositions := by
  refine ⟨fun text t => wellFormed_of_parseText, fun t ht => ?_⟩
  obtain ⟨t', hparse, herase⟩ := parseText_print ht
  exact ⟨_, t', Fragment.reprint_eq _, hparse, herase⟩

/-- A workflow with a script, and a guard that looks like a comment inside
its string. -/
def sampleWorkflow : Workflow :=
  let script : List Statement :=
    [.assignment ⟨"count", (Factor.integer "1").toExpression, .start⟩]
  let guard := (Factor.string "\"a // b\"").toExpression.toCondition
  ⟨"order", [⟨.state, "opened", [⟨.enter, script, .start⟩], [⟨"closed", some guard, .start⟩],
    .start⟩], .start⟩

theorem sampleWorkflow_wellFormed : workflow.WellFormed sampleWorkflow := by
  have hscript a (ha : a ∈ [Action.mk .enter [.assignment ⟨"count",
      (Factor.integer "1").toExpression, .start⟩] .start]) : a.WellSpelled := by
    obtain rfl := List.mem_singleton.mp ha
    have hdigits : Lexical.isDigits "1" := by decide
    exact ⟨⟨by decide, ⟨hdigits, trivial⟩, trivial⟩, trivial⟩
  have hguard t (ht : t ∈ [Transition.mk "closed"
      (some (Factor.string "\"a // b\"").toExpression.toCondition) .start]) : t.WellSpelled := by
    obtain rfl := List.mem_singleton.mp ht
    refine ⟨by decide, fun c hc => ?_⟩
    obtain rfl := Option.some.inj hc
    have hquoted : Lexical.isQuoted "\"a // b\"" := by decide
    exact ⟨⟨⟨⟨hquoted, trivial⟩, trivial⟩, trivial⟩, trivial⟩
  refine ⟨⟨by decide, fun n hn => ?_⟩, by decide⟩
  obtain rfl := List.mem_singleton.mp hn
  exact ⟨by decide, hscript, hguard⟩

/-- The sample is printed, and parsed again as itself. -/
theorem parse_print_sample : ∃ text w,
    (workflow.fragment sampleWorkflow).reprint =
        some ⟨workflow.fragment sampleWorkflow, text, ()⟩ ∧
      workflow.parseText text = .ok w ∧ workflow.WellFormed w ∧
        (workflow.fragment w).erasePositions =
          (workflow.fragment sampleWorkflow).erasePositions := by
  obtain ⟨hwell, hprint⟩ := parse_print_inverse workflow
  obtain ⟨text, w, hreprint, hparse, herase⟩ := hprint _ sampleWorkflow_wellFormed
  exact ⟨text, w, hreprint, hparse, hwell text w hparse, herase⟩

end Entry

end WorkflowScript
