import WorkflowScript.Proofs.Parser.Loops
import WorkflowScript.Proofs.Session.Counter
import WorkflowScript.Proofs.Token.Lexing

/-!
# Logs of parsers

What is logged while a parser reads a text comes from two sides. The scanner
warns of each token it cannot make sense of, as soon as the token is pulled;
the parser reports what it has read. Here the two are told apart: `warnings`
are the events of that level, `reports` are all others.

All parsers `Warn` of what they pull and of nothing else: together with the
tokens that are still to come their warnings are those of the whole text. A
parser with `Reports p report` reports what `report` makes of its value if it
succeeds, and nothing if it fails; a `Silent` one reports nothing at all.
-/

namespace WorkflowScript

open TokenSource (notices)

/-! ## Warnings and reports -/

namespace Outcome

variable {σ α : Type}

def warnings (o : Outcome σ α) : List Event := o.events.filter (·.level = .warn)

def reports (o : Outcome σ α) : List Event := o.events.filter (·.level ≠ .warn)

@[simp] theorem warnings_after (events : List Event) (o : Outcome σ α) :
    (o.after events).warnings = events.filter (·.level = .warn) ++ o.warnings :=
  List.filter_append ..

@[simp] theorem reports_after (events : List Event) (o : Outcome σ α) :
    (o.after events).reports = events.filter (·.level ≠ .warn) ++ o.reports :=
  List.filter_append ..

/-- Without warnings all events are reports. -/
theorem events_eq_reports {o : Outcome σ α} (h : o.warnings = []) : o.events = o.reports := by
  rw [warnings, List.filter_eq_nil_iff] at h
  refine (List.filter_eq_self.mpr fun event hevent => ?_).symm
  simpa using h event hevent

end Outcome

/-! ## Tokens still to come -/

namespace Scanner

theorem level_of_mem_notices {t : Token} {event : Event} (h : event ∈ Scanner.notices t) :
    event.level = .warn := by
  unfold Scanner.notices at h
  split at h
  · rw [List.mem_singleton.mp h]
    rfl
  · cases h

/-- Notices are warnings. -/
@[simp] theorem filter_notices (t : Token) :
    (TokenSource.notices Scanner t).filter (·.level = .warn) = TokenSource.notices Scanner t :=
  List.filter_eq_self.mpr fun _ h => decide_eq_true (level_of_mem_notices h)

@[simp] theorem filter_not_notices (t : Token) :
    (TokenSource.notices Scanner t).filter (·.level ≠ .warn) = [] :=
  List.filter_eq_nil_iff.mpr fun _ h => by simp [level_of_mem_notices h]

theorem notices_of_ne {t : Token} (h : t.kind ≠ .invalid) : TokenSource.notices Scanner t = [] :=
  if_neg h

/-- Behind the end of the input nothing is left. -/
theorem rest_of_atEnd {s : Scanner} (h : s.next.1.kind = .endOfInput) : s.next.2.rest = [] := by
  unfold Scanner.next at h ⊢
  generalize Lexical.splitTrivia .blank s.rest = split at h ⊢
  obtain ⟨gap, rest⟩ := split
  cases rest with
  | nil => rfl
  | cons c cs => exact absurd h (Lexical.splitLexeme_kind_ne c cs)

end Scanner

namespace Cursor

/-- The warnings of the tokens that are still to be pulled. -/
def pending (c : Cursor Scanner) : List Event :=
  (TokenSource.drain c.source).flatMap (notices Scanner)

theorem pending_of_atEnd {c : Cursor Scanner} (h : c.source.rest = []) : c.pending = [] := by
  obtain ⟨⟨rest, p⟩, current⟩ := c
  obtain rfl : rest = [] := h
  rfl

theorem pending_advance (c : Cursor Scanner) :
    c.pending = notices Scanner c.advance.current ++ c.advance.pending := by
  obtain ⟨ts, d, hts, hd⟩ := c.advance.consumes_to_end
  have hdrain : TokenSource.drain c.source = ts ++ [d.current] := hts.drain hd
  rw [pending, hdrain]
  cases ts with
  | nil =>
      obtain rfl := hts
      have hrest : c.advance.source.rest = [] := Scanner.rest_of_atEnd hd
      rw [pending_of_atEnd hrest]
      rfl
  | cons t ts =>
      obtain ⟨rfl, -, hmore⟩ := hts
      have hmore : TokenSource.drain c.advance.source = ts ++ [d.current] := hmore.drain hd
      rw [pending, hmore]
      rfl

theorem Consumes.rest_of_atEnd {s : Scanner} {d : Cursor Scanner} {ts : List Token}
    (h : (ofSource s).Consumes ts d) (hend : d.current.kind = .endOfInput) :
    d.source.rest = [] := by
  induction ts generalizing s with
  | nil =>
      obtain rfl := h
      exact Scanner.rest_of_atEnd hend
  | cons t ts ih => exact ih h.2.2

/-- What the consumed tokens and the one behind them are warned of. -/
theorem Consumes.pending_eq {c d : Cursor Scanner} {ts : List Token} (h : c.Consumes ts d) :
    notices Scanner c.current ++ c.pending =
      ts.flatMap (notices Scanner) ++ (notices Scanner d.current ++ d.pending) := by
  induction ts generalizing c with
  | nil =>
      obtain rfl := h
      rfl
  | cons t ts ih =>
      obtain ⟨rfl, -, hmore⟩ := h
      rw [pending_advance, ih hmore, List.flatMap_cons, List.append_assoc]

end Cursor

/-! ## Parsers that warn -/

namespace Parser

variable {α β : Type}

/-- The parser warns of the tokens that it pulls, and of nothing else. -/
def Warns (p : Parser Scanner α) : Prop :=
  ∀ c, (p c).warnings ++ (p c).cursor.pending = c.pending

protected theorem Warns.bind {p : Parser Scanner α} {f : α → Parser Scanner β} (hp : Warns p)
    (hf : ∀ a, Warns (f a)) : Warns (p >>= f) := by
  intro c
  have hpc := hp c
  rcases h : p c with ⟨e | a, events, d⟩
  · rw [bind_apply_error h]
    rw [h] at hpc
    exact hpc
  · rw [h] at hpc
    rw [bind_apply_ok h, Outcome.warnings_after, List.append_assoc]
    exact (congrArg _ (hf a d)).trans hpc

/-- A report of the value is no warning. -/
protected theorem Warns.notify {event : Event} {a : α} (h : event.level ≠ .warn) :
    Warns (notify event >>= fun _ => pure a) := by
  intro c
  show [event].filter (·.level = .warn) ++ c.pending = c.pending
  simp [h]

protected theorem Warns.advance : Warns (advance : Parser Scanner Token) := by
  intro c
  have hnotices : (advance c).warnings = notices Scanner c.advance.current :=
    Scanner.filter_notices _
  rw [hnotices]
  exact c.pending_advance.symm

/-- To warn of what is pulled is kept by all ways of putting parsers together. -/
def warning : QuietCongruence Scanner Scanner where
  Rel p _ := Warns p
  pure _ _ := rfl
  bind hp hf := .bind hp hf
  peek _ := rfl
  place _ := rfl
  unexpected _ _ := rfl
  advance := .advance
  sized h c := h (c.size + 1) c

/-! ## Parsers that report -/

/-- What is reported of a success; a failure is not reported. -/
def onSuccess (report : α → List Event) : Except ParseError α → List Event
  | .ok a => report a
  | .error _ => []

/-- The parser reports what `report` makes of its value. -/
def Reports (p : Parser Scanner α) (report : α → List Event) : Prop :=
  ∀ c, (p c).reports = onSuccess report (p c).result

/-- The parser reports nothing. -/
abbrev Silent (p : Parser Scanner α) : Prop := Reports p fun _ => []

theorem reports_bind_of_runs {p : Parser Scanner α} {f : α → Parser Scanner β}
    {c d : Cursor Scanner} {a : α} (h : p.Runs c a d) :
    ((p >>= f) c).reports = (p c).reports ++ (f a d).reports ∧
      ((p >>= f) c).result = (f a d).result := by
  obtain ⟨events, hp⟩ := h
  rw [bind_apply_ok hp, Outcome.reports_after, hp]
  exact ⟨rfl, rfl⟩

theorem reports_bind_of_fails {p : Parser Scanner α} {f : α → Parser Scanner β}
    {c d : Cursor Scanner} {e : ParseError} (h : p.Fails c e d) :
    ((p >>= f) c).reports = (p c).reports ∧ ((p >>= f) c).result = .error e := by
  obtain ⟨events, hp⟩ := h
  rw [bind_apply_error hp, hp]
  exact ⟨rfl, rfl⟩

theorem reports_map (f : α → β) (p : Parser Scanner α) (c : Cursor Scanner) :
    ((f <$> p) c).reports = (p c).reports ∧ ((f <$> p) c).result = f <$> (p c).result := by
  rw [map_eq_bind]
  rcases p.runs_or_fails c with ⟨a, d, hr⟩ | ⟨e, d, hf⟩
  · obtain ⟨hreports, hresult⟩ := reports_bind_of_runs (f := fun a => pure (f a)) hr
    rw [hreports, hresult, (runs_iff.mp hr).1]
    exact ⟨List.append_nil _, rfl⟩
  · obtain ⟨hreports, hresult⟩ := reports_bind_of_fails (f := fun a => pure (f a)) hf
    rw [hreports, hresult, (fails_iff.mp hf).1]
    exact ⟨rfl, rfl⟩

theorem Reports.of_runs {p : Parser Scanner α} {report : α → List Event} (h : Reports p report)
    {c d : Cursor Scanner} {a : α} (hr : p.Runs c a d) : (p c).reports = report a := by
  rw [h c, (runs_iff.mp hr).1, onSuccess]

theorem Reports.of_fails {p : Parser Scanner α} {report : α → List Event} (h : Reports p report)
    {c d : Cursor Scanner} {e : ParseError} (hf : p.Fails c e d) : (p c).reports = [] := by
  rw [h c, (fails_iff.mp hf).1, onSuccess]

/-! Behind a silent parser only the reports of the next one count. -/

theorem Reports.bind_of_runs {p : Parser Scanner α} {f : α → Parser Scanner β}
    {c d : Cursor Scanner} {a : α} (hp : Silent p) (h : p.Runs c a d) :
    ((p >>= f) c).reports = (f a d).reports ∧ ((p >>= f) c).result = (f a d).result := by
  obtain ⟨hreports, hresult⟩ := reports_bind_of_runs (f := f) h
  rw [hp.of_runs h] at hreports
  exact ⟨hreports, hresult⟩

theorem Reports.bind_of_fails {p : Parser Scanner α} {f : α → Parser Scanner β}
    {c d : Cursor Scanner} {e : ParseError} (hp : Silent p) (h : p.Fails c e d) :
    ((p >>= f) c).reports = [] ∧ ((p >>= f) c).result = .error e := by
  obtain ⟨hreports, hresult⟩ := reports_bind_of_fails (f := f) h
  rw [hp.of_fails h] at hreports
  exact ⟨hreports, hresult⟩

protected theorem Reports.bind {p : Parser Scanner α} {f : α → Parser Scanner β}
    {report : β → List Event} (hp : Silent p) (hf : ∀ a, Reports (f a) report) :
    Reports (p >>= f) report := by
  intro c
  rcases p.runs_or_fails c with ⟨a, d, hr⟩ | ⟨e, d, hf'⟩
  · obtain ⟨hreports, hresult⟩ := hp.bind_of_runs (f := f) hr
    rw [hreports, hresult]
    exact hf a d
  · obtain ⟨hreports, hresult⟩ := hp.bind_of_fails (f := f) hf'
    rw [hreports, hresult, onSuccess]

theorem reports_of_silent {p : Parser Scanner α} (h : Silent p) (c : Cursor Scanner) :
    (p c).reports = [] := by
  rw [h c]
  cases (p c).result <;> rfl

/-- Nothing is added by silent parsers behind another one. -/
theorem reports_bind_silent {p : Parser Scanner α} {f : α → Parser Scanner β}
    (hf : ∀ a, Silent (f a)) (c : Cursor Scanner) : ((p >>= f) c).reports = (p c).reports := by
  rcases p.runs_or_fails c with ⟨a, d, hr⟩ | ⟨e, d, hfails⟩
  · rw [(reports_bind_of_runs hr).1, reports_of_silent (hf a), List.append_nil]
  · exact (reports_bind_of_fails hfails).1

theorem run_result (p : Parser Scanner α) (s : Scanner) :
    (p.run s).result = (p (.ofSource s)).result := rfl

/-- What is pulled in front of a parser is no report. -/
theorem reports_run (p : Parser Scanner α) (s : Scanner) :
    (p.run s).reports = (p (.ofSource s)).reports := by
  rw [run, Outcome.reports_after, Scanner.filter_not_notices, List.nil_append]

/-- A value is reported last. -/
protected theorem Reports.notify {event : Event} {a : α} {report : α → List Event}
    (h : event.level ≠ .warn) (hreport : report a = [event]) :
    Reports (notify event >>= fun _ => pure a) report := by
  intro c
  show [event].filter (·.level ≠ .warn) = report a
  rw [hreport]
  simp [h]

/-- To report nothing is kept by all ways of putting parsers together. -/
def silence : QuietCongruence Scanner Scanner where
  Rel p _ := Silent p
  pure _ _ := rfl
  bind hp hf := Reports.bind hp hf
  peek _ := rfl
  place _ := rfl
  unexpected _ _ := rfl
  advance _ := Scanner.filter_not_notices _
  sized h c := h (c.size + 1) c

/-- To reach the end of the input is no report. -/
theorem reports_toEnd (p : Parser Scanner α) (c : Cursor Scanner) :
    (toEnd p c).reports = (p c).reports :=
  reports_bind_silent (fun a => silence.bind (silence.expect _) fun _ => silence.pure a) c

/-! Loops report what their items do. -/

section RepeatUntil

variable (stop : TokenKind → Bool) {item : Parser Scanner α} {c d : Cursor Scanner}

theorem reports_repeatUntil_stop (hitem : item.Advancing) (h : stop c.current.kind = true) :
    (repeatUntil stop item c).reports = [] ∧ (repeatUntil stop item c).result = .ok [] := by
  rw [repeatUntil_apply hitem, repeatTurn, peek_bind_apply, if_pos h]
  exact ⟨rfl, rfl⟩

theorem reports_repeatUntil_of_fails (hitem : item.Advancing) {e : ParseError}
    (h : stop c.current.kind = false) (hf : item.Fails c e d) :
    (repeatUntil stop item c).reports = (item c).reports ∧
      (repeatUntil stop item c).result = .error e := by
  rw [repeatUntil_apply hitem, repeatTurn, peek_bind_apply,
    if_neg (by rw [h]; exact Bool.false_ne_true)]
  exact reports_bind_of_fails hf

theorem reports_repeatUntil_of_runs (hitem : item.Advancing) {x : α}
    (h : stop c.current.kind = false) (hr : item.Runs c x d) :
    (repeatUntil stop item c).reports = (item c).reports ++ (repeatUntil stop item d).reports ∧
      (repeatUntil stop item c).result = (x :: ·) <$> (repeatUntil stop item d).result := by
  rw [repeatUntil_apply hitem c, repeatTurn, peek_bind_apply,
    if_neg (by rw [h]; exact Bool.false_ne_true)]
  obtain ⟨hreports, hresult⟩ :=
    reports_bind_of_runs (f := fun x => (x :: ·) <$> repeatUntil stop item) hr
  obtain ⟨hreports', hresult'⟩ := reports_map (x :: ·) (repeatUntil stop item) d
  exact ⟨hreports.trans (congrArg _ hreports'), hresult.trans hresult'⟩

end RepeatUntil

end Parser

namespace Grammar

open WorkflowScript.Parser

variable {σ τ : Type} [TokenSource σ] [TokenSource τ]

/-- The recursive rules are related to themselves, whatever the relation. -/
theorem quietlyRelated_rulesWithin (C : QuietCongruence σ τ) (n : Nat) :
    (rulesWithin n : Rules σ).QuietlyRelated C (rulesWithin n : Rules τ) := by
  induction n with
  | zero =>
      have hany (r : Rules σ) (q : Rules τ) : r.Related .any q := ⟨trivial, trivial, trivial⟩
      rw [rulesWithin_zero (rulesWithin 0 : Rules σ), rulesWithin_zero (rulesWithin 0 : Rules τ)]
      exact (hany _ _).turn fun _ => C.unexpected _
  | succ n ih =>
      rw [rulesWithin_succ, rulesWithin_succ]
      exact ih.turn id

end Grammar

end WorkflowScript
