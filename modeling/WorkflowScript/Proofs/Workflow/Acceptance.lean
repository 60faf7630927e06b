import WorkflowScript.Grammar.Counting
import WorkflowScript.Proofs.Workflow.Completeness

/-!
# What the parser accepts

There are three ways into the parser: a workflow, a condition or a script,
each up to the end of the input. Recognition and completeness together say
what they accept: the derivable sequences whose trees fit into the levels
(`parse_ok_iff_derives`), each with one tree only.
-/

namespace WorkflowScript

open WorkflowScript.Language WorkflowScript.Parser

/-! ## Token streams -/

/-- Through a list of tokens leads one way, to the end of the input. -/
theorem TokenStream.consumes_all : ∀ {ts : List Token} (last : Position),
    (∀ t ∈ ts, t.kind ≠ .endOfInput) →
      ∃ c, (Cursor.ofSource (⟨ts, last⟩ : TokenStream)).Consumes ts c ∧
        c.current.kind = .endOfInput
  | [], last, _ => ⟨Cursor.ofSource ⟨[], last⟩, rfl, rfl⟩
  | t :: ts, _, h => by
      obtain ⟨ht, hts⟩ := List.forall_mem_cons.mp h
      obtain ⟨c, hc, hend⟩ := consumes_all t.position hts
      exact ⟨c, Cursor.consumes_cons.mpr ⟨rfl, ht, hc⟩, hend⟩

/-! ## One tree for a sequence -/

/-- A sequence has one tree at most. -/
def Unambiguous {α : Type} (derives : List Token → α → Prop) : Prop :=
  ∀ ts a b, derives ts a → derives ts b → a = b

/-- What a parser finds in front of the end of the input has one tree at most:
with levels enough for two trees it finds either of them, and one only. -/
theorem Unambiguous.of_runs {α : Type} {derives : List Token → α → Prop} {nesting : α → Nat}
    (parser : Nat → Parser TokenStream α)
    (hproper : ∀ {ts a}, derives ts a → ∀ t ∈ ts, t.Proper)
    (hruns : ∀ {n c c' ts a}, derives ts a → nesting a ≤ n → c.Consumes ts c' →
      c'.current.kind = .endOfInput → (parser n).Runs c a c') : Unambiguous derives := by
  intro ts a b ha hb
  obtain ⟨c, hc, hend⟩ := TokenStream.consumes_all .start fun t ht => (hproper ha t ht).2
  have hra := hruns (n := max (nesting a) (nesting b)) ha (Nat.le_max_left ..) hc hend
  have hrb := hruns (n := max (nesting a) (nesting b)) hb (Nat.le_max_right ..) hc hend
  exact (hra.unique hrb).1

/-! ## Entries -/

/-- A start symbol of the grammar. -/
inductive Entry where
  | workflow | condition | script
deriving DecidableEq

namespace Entry

variable {σ : Type} [TokenSource σ]

@[reducible] def Tree : Entry → Type
  | workflow => Workflow
  | condition => Condition
  | script => List Statement

/-- The parser of the start symbol, for a number of free levels. -/
def production : (e : Entry) → (levels : Nat) → Parser σ e.Tree
  | workflow => Grammar.workflow
  | condition => Grammar.condition
  | script => Grammar.script

/-- The parser that must reach the end of the input. -/
def parser : (e : Entry) → Parser σ e.Tree
  | workflow => toEnd (Grammar.workflow maxNesting)
  | condition => Grammar.conditionToEnd
  | script => Grammar.script maxNesting

/-- The parser of the start symbol over the recursive rules. -/
def rule (r : Grammar.Rules σ) : (e : Entry) → Parser σ e.Tree
  | workflow => r.workflow
  | condition => Grammar.conditionOf r.factor
  | script => repeatUntil (· = .endOfInput) r.statement

/-- The same up to the end of the input. -/
def whole (r : Grammar.Rules σ) : (e : Entry) → Parser σ e.Tree
  | workflow => toEnd r.workflow
  | condition => do
    let condition ← toEnd (Grammar.conditionOf r.factor)
    notify (.parsedCondition (condition.rest.length + 1))
    pure condition
  | script => repeatUntil (· = .endOfInput) r.statement

theorem rule_rulesWithin (e : Entry) (n : Nat) :
    (e.rule (Grammar.rulesWithin n) : Parser σ e.Tree) = e.production n := by
  cases e <;> rfl

theorem whole_rulesWithin (e : Entry) :
    (e.whole (Grammar.rulesWithin maxNesting) : Parser σ e.Tree) = e.parser := by
  cases e <;> rfl

/-- The outcome on a list of tokens with the end of the input behind it. -/
def outcome (e : Entry) (ts : List Token) : Outcome TokenStream e.Tree :=
  e.parser.run (TokenStream.ofList ts)

/-- The tree or the error that the parser answers with. -/
def parse (e : Entry) (ts : List Token) : Except ParseError e.Tree := (e.outcome ts).result

/-- The derivations of the start symbol. -/
def Derives : (e : Entry) → List Token → e.Tree → Prop
  | workflow => Grammar.DerivesWorkflow
  | condition => Grammar.ExpressionSymbol.condition.Derives
  | script => Grammar.StatementSymbol.statements.Derives

/-- The levels of nesting that a tree needs. -/
def nesting : (e : Entry) → e.Tree → Nat
  | workflow => Workflow.nesting
  | condition => Condition.nesting
  | script => nestingOfStatements

/-! ## Productions of start symbols -/

theorem recognises (e : Entry) (n : Nat) :
    Recognises anywhere (e.production n : Parser σ e.Tree) (bounded e.Derives e.nesting) n :=
  match e with
  | workflow => Grammar.recognises_workflow n
  | condition => Grammar.recognises_condition n
  | script => Grammar.recognises_script n

theorem Derives.runs {e : Entry} {n : Nat} {c c' : Cursor σ} {ts : List Token} {t : e.Tree}
    (h : e.Derives ts t) (hn : e.nesting t ≤ n) (hc : c.Consumes ts c')
    (hend : c'.current.kind = .endOfInput) : (e.production n).Runs c t c' :=
  match e, t, h, hn with
  | workflow, _, h, hn => Grammar.DerivesWorkflow.runs h hn hc
  | condition, _, h, hn =>
      Grammar.ExpressionSymbol.Derives.runs h hn hc (by rw [hend]; decide)
  | script, _, h, hn =>
      Grammar.StatementSymbol.Derives.accepts h hn hc (by rw [hend]; decide) _ (by decide)
        (by simp [hend])

theorem Derives.proper {e : Entry} {ts : List Token} {t : e.Tree} (h : e.Derives ts t) :
    ∀ x ∈ ts, x.Proper :=
  match e, t, h with
  | workflow, _, h => Grammar.DerivesWorkflow.proper h
  | condition, _, h => Grammar.ExpressionSymbol.Derives.proper h
  | script, _, h => Grammar.StatementSymbol.Derives.proper h

theorem unambiguous (e : Entry) : Unambiguous e.Derives :=
  .of_runs (fun n => e.production n) Derives.proper Derives.runs

theorem Derives.unique {e : Entry} {ts : List Token} {t t' : e.Tree} (h : e.Derives ts t)
    (h' : e.Derives ts t') : t = t' :=
  e.unambiguous ts t t' h h'

/-! ## The end of the input -/

theorem runs_toEnd {α : Type} {p : Parser σ α} {c e : Cursor σ} {a : α} :
    (toEnd p).Runs c a e ↔
      ∃ d, p.Runs c a d ∧ d.current.kind = .endOfInput ∧ e = d.advance := by
  simp only [toEnd, runs_bind, runs_expect, runs_pure]
  constructor
  · rintro ⟨a, d, hp, t, d', ⟨hend, -, rfl⟩, rfl, rfl⟩
    exact ⟨d, hp, hend, rfl⟩
  · rintro ⟨d, hp, hend, rfl⟩
    exact ⟨a, d, hp, _, _, ⟨hend, rfl, rfl⟩, rfl, rfl⟩

section Whole

variable {e : Entry} {r : Grammar.Rules σ} {c d : Cursor σ} {t : e.Tree}

/-- What has been parsed up to the end of the input has reached it with the
start symbol. A script stops in front of the end, the others consume it. -/
theorem runs_whole (h : (e.whole r).Runs c t d) :
    ∃ d', (e.rule r).Runs c t d' ∧
      (d'.current.kind = .endOfInput ∧ d = d'.advance ∨ e = script ∧ d = d') :=
  match e, t, h with
  | workflow, _, h => by
      obtain ⟨d', hr, hend, rfl⟩ := runs_toEnd.mp h
      exact ⟨d', hr, .inl ⟨hend, rfl⟩⟩
  | condition, _, h => by
      obtain ⟨t, d'', hcondition, hrest⟩ := runs_bind.mp h
      obtain ⟨_, _, hnotify, hpure⟩ := runs_bind.mp hrest
      obtain ⟨rfl, rfl⟩ := runs_pure.mp hpure
      obtain rfl := runs_notify.mp hnotify
      obtain ⟨d', hr, hend, rfl⟩ := runs_toEnd.mp hcondition
      exact ⟨d', hr, .inl ⟨hend, rfl⟩⟩
  | script, _, h => ⟨d, h, .inr ⟨rfl, rfl⟩⟩

theorem whole_runs (h : (e.rule r).Runs c t d) (hend : d.current.kind = .endOfInput) :
    ∃ d', (e.whole r).Runs c t d' :=
  match e, t, h with
  | workflow, _, h => ⟨_, runs_toEnd.mpr ⟨d, h, hend, rfl⟩⟩
  | condition, t, h => ⟨_, runs_bind.mpr ⟨t, _, runs_toEnd.mpr ⟨d, h, hend, rfl⟩,
      runs_bind.mpr ⟨(), _, runs_notify.mpr rfl, runs_pure.mpr ⟨rfl, rfl⟩⟩⟩⟩
  | script, _, h => ⟨d, h⟩

end Whole

/-- To parse up to the end of the input is to reach it with the start symbol. -/
theorem runs_iff_reaches_end (e : Entry) {c : Cursor σ} {t : e.Tree} :
    (∃ d, e.parser.Runs c t d) ↔
      ∃ d, (e.production maxNesting).Runs c t d ∧ d.current.kind = .endOfInput := by
  rw [← whole_rulesWithin, ← rule_rulesWithin]
  constructor
  · rintro ⟨d, h⟩
    obtain ⟨d', hr, ⟨hend, -⟩ | ⟨rfl, rfl⟩⟩ := runs_whole h
    · exact ⟨d', hr, hend⟩
    · have hstop := stop_of_runs_repeatUntil (Grammar.advancing_statement _)
        (Nat.lt_succ_self _) h
      exact ⟨d, h, by simpa using hstop⟩
  · rintro ⟨d, h, hend⟩
    exact whole_runs h hend

/-- On the way to the end of the input lie the derivable sequences. -/
theorem runs_iff_derives (e : Entry) {c c' : Cursor σ} {ts : List Token} {t : e.Tree}
    (hc : c.Consumes ts c') (hend : c'.current.kind = .endOfInput) :
    (∃ d, e.parser.Runs c t d) ↔ e.Derives ts t ∧ e.nesting t ≤ maxNesting := by
  rw [runs_iff_reaches_end]
  constructor
  · rintro ⟨d, h, hd⟩
    obtain ⟨us, hus, hderives⟩ := (e.recognises maxNesting).runs trivial h
    obtain rfl := hus.eq_of_atEnd hd hc hend
    exact hderives
  · rintro ⟨hderives, hn⟩
    exact ⟨c', hderives.runs hn hc hend, hend⟩

/-! ## Acceptance -/

theorem parse_eq_ok {e : Entry} {ts : List Token} {t : e.Tree} :
    e.parse ts = .ok t ↔ ∃ d, e.parser.Runs (Cursor.ofSource (TokenStream.ofList ts)) t d := by
  constructor
  · exact fun h => ⟨_, runs_iff.mpr ⟨h, rfl⟩⟩
  · rintro ⟨d, h⟩
    exact (runs_iff.mp h).1

theorem parse_eq_ok_iff {e : Entry} {ts : List Token} {t : e.Tree}
    (h : ∀ x ∈ ts, x.kind ≠ .endOfInput) :
    e.parse ts = .ok t ↔ e.Derives ts t ∧ e.nesting t ≤ maxNesting := by
  obtain ⟨c, hc, hend⟩ := TokenStream.consumes_all .start h
  exact parse_eq_ok.trans (runs_iff_derives e hc hend)

/-- The parser accepts a sequence of tokens with a tree if and only if the
grammar derives the tree from the sequence and it fits into the levels. An
accepted sequence has one tree, and no invalid token. -/
theorem parse_ok_iff_derives (e : Entry) (ts : List Token)
    (h : ∀ x ∈ ts, x.kind ≠ .endOfInput) :
    (∀ t, e.parse ts = .ok t ↔ e.Derives ts t ∧ e.nesting t ≤ maxNesting) ∧
      ∀ t, e.parse ts = .ok t →
        (∀ t', e.Derives ts t' → t' = t) ∧ ∀ x ∈ ts, x.kind ≠ .invalid := by
  refine ⟨fun t => parse_eq_ok_iff h, fun t ht => ?_⟩
  obtain ⟨hderives, -⟩ := (parse_eq_ok_iff h).mp ht
  exact ⟨fun t' h' => h'.unique hderives, fun x hx => (hderives.proper x hx).1⟩

/-- A call without arguments as a script. -/
theorem parse_call_ok : Entry.script.parse
    [⟨.identifier, "go", ⟨0, 1, 1⟩⟩, .plain .leftParen, .plain .rightParen] =
      .ok [.call ⟨"go", [], ⟨0, 1, 1⟩⟩] :=
  ((parse_ok_iff_derives .script _ (by decide)).1 _).mpr
    ⟨.cons (.ofCall (.call rfl (.noArguments rfl rfl))) .nil, by decide⟩

end Entry

end WorkflowScript
