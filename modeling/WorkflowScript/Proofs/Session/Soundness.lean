import WorkflowScript.Proofs.Session.Counter
import WorkflowScript.Proofs.Session.Sentences

/-!
# Sessions are sound

Whatever has been called on a parser object before, and however it ended, the
next call is as good as the first one on a new object. What is left behind by
a call is told by two invariants. No level is open, since a step with a
counter mirrors the step without one. And the source ends where its last
token stood (`Settled`), so the lookahead and the tokens not yet pulled are
all there is to a cursor.

That a call consumes tokens of the grammar only, and stops at the token that
it reports, is read off what the productions recognise (`Orderly`).
-/

namespace WorkflowScript

open WorkflowScript.Language WorkflowScript.Parser

variable {σ α : Type} [TokenSource σ]

/-! ## Taking tokens -/

/-- Pulling the tokens `ts` one after another leads from one cursor to the
other. Unlike `Consumes` this may go past the end of the input. -/
def Cursor.Takes : Cursor σ → List Token → Cursor σ → Prop
  | c, [], d => d = c
  | c, t :: ts, d => c.current = t ∧ c.advance.Takes ts d

theorem Cursor.Consumes.takes {c d : Cursor σ} {ts : List Token} (h : c.Consumes ts d) :
    c.Takes ts d := by
  induction ts generalizing c with
  | nil => exact h
  | cons t ts ih => exact ⟨h.1, ih h.2.2⟩

/-! ## Orderly parsers -/

/-- What a parser consumes are tokens of the grammar, and if it fails it
reports the token that it has not consumed. With `strict` a success takes a
token at least. -/
structure Parser.Orderly (p : Parser σ α) (strict : Prop) : Prop where
  runs : ∀ {c a d}, p.Runs c a d →
    ∃ ts, c.Consumes ts d ∧ (∀ t ∈ ts, t.Proper) ∧ (strict → ts ≠ [])
  fails : ∀ {c e d}, p.Fails c e d →
    ∃ ts, c.Consumes ts d ∧ (∀ t ∈ ts, t.Proper) ∧ e.token = d.current

/-- A parser that recognises sentences is orderly, for what it has consumed is
a sentence or the beginning of one. -/
theorem Parser.Recognises.orderly {p : Parser σ α} {L : Language α} {n : Nat} {strict : Prop}
    (h : Recognises anywhere p L n) (hproper : ∀ {ts a}, L n ts a → ∀ t ∈ ts, t.Proper)
    (hne : ∀ {ts a}, strict → L n ts a → ts ≠ []) : p.Orderly strict where
  runs hr := by
    obtain ⟨ts, hts, hsentence⟩ := h.runs trivial hr
    exact ⟨ts, hts, hproper hsentence, fun hs => hne hs hsentence⟩
  fails hf := by
    obtain ⟨ts, hts, htoken, hbegins, -⟩ := h.fails trivial hf
    refine ⟨ts, hts, ?_, htoken⟩
    rcases hbegins with rfl | ⟨us, a, hsentence⟩
    · exact fun _ ht => nomatch ht
    · exact fun t ht => hproper hsentence t (List.mem_append_left us ht)

/-- Every production is orderly. All but the script take a token at least. -/
theorem Production.orderly (p : Production) :
    (p.parser : Parser σ Fragment).Orderly (p ≠ .script) :=
  p.recognises.orderly Derives.proper fun hp h => h.ne_nil hp

/-! ## Calls -/

/-- What holds of a call, be it a success or a failure, that starts at the
cursor `c`, has the outcome `o` and consumes the tokens `ts`. -/
structure Step.InOrder (step : Step) (c : Cursor σ) (o : Outcome σ (Option Fragment))
    (ts : List Token) : Prop where
  /-- The tokens are the next ones, and the call stops right behind them. -/
  takes : c.Takes ts o.cursor
  /-- The token at which a failed call stops is the one it reports. -/
  reports : ∀ e, o.result = .error e → e.token = o.cursor.current
  valid : ∀ t ∈ ts, t.kind ≠ .invalid
  /-- The end of the input is consumed by the step that asks for it only. -/
  atEnd : ∀ t ∈ ts, t.kind = .endOfInput → step = .endOfInput
  /-- A success consumes something. Only an empty script is made of nothing. -/
  progress : ∀ tree, o.result = .ok tree → step ≠ .production .script → ts ≠ []

namespace Step

/-- Once a call has succeeded there is nothing to report. -/
theorem InOrder.of_runs {step : Step} {c d : Cursor σ} {tree : Option Fragment} {ts : List Token}
    (h : (step.parser : Parser σ _).Runs c tree d) (takes : c.Takes ts d)
    (valid : ∀ t ∈ ts, t.kind ≠ .invalid)
    (atEnd : ∀ t ∈ ts, t.kind = .endOfInput → step = .endOfInput)
    (progress : step ≠ .production .script → ts ≠ []) : step.InOrder c (step.parser c) ts := by
  obtain ⟨hresult, rfl⟩ := runs_iff.mp h
  exact ⟨takes, fun e he => (nomatch hresult.symm.trans he), valid, atEnd, fun _ _ => progress⟩

/-- Once a call has failed there is no need for progress. -/
theorem InOrder.of_fails {step : Step} {c d : Cursor σ} {e : ParseError} {ts : List Token}
    (h : (step.parser : Parser σ (Option Fragment)).Fails c e d) (takes : c.Takes ts d)
    (htoken : e.token = d.current) (valid : ∀ t ∈ ts, t.kind ≠ .invalid)
    (atEnd : ∀ t ∈ ts, t.kind = .endOfInput → step = .endOfInput) :
    step.InOrder c (step.parser c) ts := by
  obtain ⟨hresult, rfl⟩ := fails_iff.mp h
  refine ⟨takes, fun e' he => ?_, valid, atEnd, fun _ hok => nomatch hresult.symm.trans hok⟩
  obtain rfl : e = e' := Except.error.inj (hresult.symm.trans he)
  exact htoken

/-- A call of a production consumes proper tokens. -/
theorem inOrder_production (p : Production) (c : Cursor σ) :
    ∃ ts, (production p).InOrder c ((production p).parser c) ts := by
  rcases (p.parser : Parser σ Fragment).runs_or_fails c with ⟨tree, d, hr⟩ | ⟨e, d, hf⟩
  · obtain ⟨ts, hts, hproper, hne⟩ := p.orderly.runs hr
    exact ⟨ts, .of_runs (runs_map.mpr ⟨tree, hr, rfl⟩) hts.takes (fun t ht => (hproper t ht).1)
      (fun t ht hend => absurd hend (hproper t ht).2)
      fun hscript => hne fun hp => hscript (congrArg production hp)⟩
  · obtain ⟨ts, hts, hproper, htoken⟩ := p.orderly.fails hf
    exact ⟨ts, .of_fails (fails_bind.mpr (.inl hf)) hts.takes htoken
      (fun t ht => (hproper t ht).1) fun t ht hend => absurd hend (hproper t ht).2⟩

/-- To ask for the end of the input consumes it, or nothing. -/
theorem inOrder_endOfInput (c : Cursor σ) :
    ∃ ts, endOfInput.InOrder c (endOfInput.parser c) ts := by
  by_cases hend : c.current.kind = .endOfInput
  · refine ⟨[c.current], .of_runs
      (runs_bind.mpr ⟨_, _, runs_expect.mpr ⟨hend, rfl, rfl⟩, runs_pure.mpr ⟨rfl, rfl⟩⟩)
      ⟨rfl, rfl⟩ (fun t ht => ?_) (fun _ _ _ => rfl) fun _ => List.cons_ne_nil _ _⟩
    rw [List.mem_singleton.mp ht, hend]
    decide
  · exact ⟨[], .of_fails (fails_bind.mpr (.inl (fails_expect.mpr ⟨hend, rfl, rfl⟩))) rfl rfl
      (fun _ ht => nomatch ht) fun _ ht => nomatch ht⟩

/-- Every call is in order. -/
theorem inOrder (step : Step) (c : Cursor σ) : ∃ ts, step.InOrder c (step.parser c) ts :=
  match step with
  | production p => inOrder_production p c
  | endOfInput => inOrder_endOfInput c

end Step

/-! ## Calls with a counter -/

theorem Cursor.Takes.counting {c d : Cursor σ} {ts : List Token} (h : c.Takes ts d)
    (opened : Nat) : (c.counting opened).Takes ts (d.counting opened) := by
  induction ts generalizing c with
  | nil => exact congrArg (Cursor.counting opened) h
  | cons t ts ih => exact ⟨h.1, ih h.2⟩

theorem Step.InOrder.counting {step : Step} {c : Cursor σ} {o : Outcome σ (Option Fragment)}
    {ts : List Token} (h : step.InOrder c o ts) (opened : Nat) :
    step.InOrder (c.counting opened) (o.counting opened) ts :=
  { h with takes := h.takes.counting opened }

/-- A session with a counter stops where the one without it stops, with no
level open. -/
theorem stopOfCounting_counting (steps : List Step) (c : Cursor σ) :
    stopOfCounting steps (c.counting 0) = (stopOfSteps steps c).counting 0 := by
  induction steps generalizing c with
  | nil => rfl
  | cons step steps ih =>
      rw [stopOfCounting, step.mirrors_counting c]
      exact ih (step.parser c).cursor

/-! ## Cursors between two calls -/

/-- The source will end where the lookahead stands, as it does once the
lookahead has been pulled from it. -/
def Cursor.Settled (c : Cursor TokenStream) : Prop := c.source.last = c.current.position

namespace Cursor

theorem settled_ofSource (s : TokenStream) : (ofSource s).Settled := by
  obtain ⟨tokens, last⟩ := s
  cases tokens with
  | nil => rfl
  | cons t ts => rfl

theorem Takes.settled {c d : Cursor TokenStream} {ts : List Token} (h : c.Takes ts d)
    (hc : c.Settled) : d.Settled := by
  induction ts generalizing c with
  | nil => exact (h : d = c) ▸ hc
  | cons t ts ih => exact ih h.2 (settled_ofSource c.source)

/-- Nothing but the lookahead and the tokens behind it make up a cursor. -/
theorem Settled.eq_ofSource {c : Cursor TokenStream} (h : c.Settled) :
    c = ofSource (.ofList (c.current :: c.source.tokens)) := by
  obtain ⟨⟨tokens, last⟩, current⟩ := c
  obtain rfl : last = current.position := h
  rfl

end Cursor

/-- No session leaves what is settled. -/
theorem settled_stopOfSteps (steps : List Step) {c : Cursor TokenStream} (hc : c.Settled) :
    (stopOfSteps steps c).Settled := by
  induction steps generalizing c with
  | nil => exact hc
  | cons step steps ih =>
      obtain ⟨ts, hts⟩ := step.inOrder c
      exact ih (hts.takes.settled hc)

/-! ## Sessions -/

/-- What holds of a call on a parser object that has come to stand at `c`. -/
structure SoundCall (step : Step) (c : Cursor (Counted TokenStream)) : Prop where
  /-- The call ends as it does on a new object, built over the lookahead and
  the tokens that have not been pulled. -/
  fresh : step.counting c =
    step.counting (.fresh (.ofList (c.current :: c.source.source.tokens)))
  /-- No level is left open, however deep the call has stopped. -/
  closed : (step.counting c).cursor.source.opened = 0
  inOrder : ∃ ts, step.InOrder c (step.counting c) ts

/-- Whatever steps a session has taken, with success or without, its next
call does what the parser without a counter does, and is sound. -/
theorem session_sound (tokens : List Token) (before : List Step) (step : Step) :
    let c := stopOfCounting before (.fresh (.ofList tokens))
    let d := stopOfSteps before (.ofSource (.ofList tokens))
    c = d.counting 0 ∧ step.counting c = (step.parser d).counting 0 ∧ SoundCall step c := by
  intro c d
  have hc : c = d.counting 0 := by
    rw [← stopOfCounting_counting, Cursor.counting_ofSource]
  have hcall : step.counting c = (step.parser d).counting 0 := by
    rw [hc]
    exact step.mirrors_counting d
  have hsettled : d.Settled := settled_stopOfSteps before (Cursor.settled_ofSource _)
  have hfresh : c = .fresh (.ofList (c.current :: c.source.source.tokens)) := by
    rw [hc]
    exact congrArg (Cursor.counting 0) hsettled.eq_ofSource
  obtain ⟨ts, hts⟩ := step.inOrder d
  refine ⟨hc, hcall, congrArg step.counting hfresh, ?_, ts, ?_⟩
  · rw [hcall]
    rfl
  · rw [hcall, hc]
    exact hts.counting 0

end WorkflowScript
