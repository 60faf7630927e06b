import WorkflowScript.Proofs.Nesting.Depth
import WorkflowScript.Proofs.Nesting.Productions
import WorkflowScript.Proofs.Nesting.Record
import WorkflowScript.Proofs.Nesting.Shortage
import WorkflowScript.Proofs.Workflow.RoundTrip

/-!
# The cap on nesting is exact

The counter of a parser object says at every token how many constructs are
open around it, and never more than the cap (`Entry.CapIsExact.steps`). So a
sentence is accepted if and only if the count stays within the cap. If it does
not, the error is at the first token that opens one construct too many, and
there is no such error anywhere else.

That the counter is the count is tracked along the recorded parse. That a
sentence which is too deep fails for that reason and no other comes from a
comparison with enough levels: the parser that has them gets through, and the
one with the cap is short of it.
-/

namespace WorkflowScript

open WorkflowScript.Grammar WorkflowScript.Parser Surroundings

variable {σ : Type} [TokenSource σ]

/-! ## The first token too deep -/

/-- As many constructs as may be are open in front of `x`, which opens another
one and is the first token to do so. -/
def FirstTooDeep (ts : List Token) (x : Token) : Prop :=
  ∃ p rest, ts = p ++ x :: rest ∧ (∀ n ∈ outermost.counts p, n ≤ maxNesting) ∧
    (outermost.after p).total = maxNesting ∧ (outermost.after p).Opens x.kind

/-- The counter has said the count at each of the tokens `p`, which have been
consumed, and has never exceeded the cap. -/
structure Cursor.HasCounted (c : Cursor (Recorded σ)) (p : List Token) : Prop where
  /-- In the beginning it was zero. -/
  record_eq : c.record = 0 :: outermost.counts p
  capped : c.Capped

omit [TokenSource σ] in
theorem Cursor.HasCounted.counts_le {c : Cursor (Recorded σ)} {p : List Token}
    (h : c.HasCounted p) : ∀ n ∈ outermost.counts p, n ≤ maxNesting := by
  intro n hn
  have hrecord : n ∈ c.record := h.record_eq ▸ List.mem_cons_of_mem _ hn
  exact Nat.le_trans (h.capped.record_le n hrecord) h.capped.peak_le

namespace Entry

/-! ## The recorded parse -/

theorem tracks_rule (e : Entry) {r : Rules (Recorded σ)} (h : r.Tracks 0) :
    Tracks 0 outermost anywhere (e.rule r) Outside := by
  have houtside : Outside outermost := ⟨rfl, rfl, rfl⟩
  have hinside := houtside.inside
  cases e with
  | workflow => exact h.workflow houtside
  | condition => exact (h.condition hinside).mono fun _ hs => hs ▸ houtside
  | script =>
      have hall : Tracks 0 outermost anywhere (Entry.script.rule r) (· = outermost) :=
        .repeatUntil (fun s hs => by subst hs; exact h.statement _ (houtside.between rfl)) rfl
      exact hall.mono fun _ hs => hs ▸ houtside

theorem capped_recording (s : σ) : (Cursor.recording s).Capped :=
  ⟨Nat.le_refl _, fun _ hn => Nat.le_of_eq (List.mem_singleton.mp hn), Nat.zero_le _⟩

section Parse

variable {e : Entry} {s : σ} {ts : List Token} {f : Cursor σ}

theorem tracked_rule : ∃ p, Tracked 0 outermost (Cursor.recording s)
    (e.rule recordingRules (Cursor.recording s)) p Outside :=
  e.tracks_rule tracks_recordingRules _ rfl (capped_recording s) trivial

theorem result_recorded : (e.recorded s).result = (e.parser (Cursor.ofSource s)).result :=
  congrArg Outcome.result (e.plain_recorded s)

variable (hts : (Cursor.ofSource s).Consumes ts f) (hend : f.current.kind = .endOfInput)

include hts hend

/-- A success has consumed everything, but perhaps not the end of the input. -/
theorem recorded_ok {t : e.Tree} (h : (e.recorded s).result = .ok t) :
    ∃ p, (e.recorded s).cursor.HasCounted p ∧ ts <+: p ∧ p <+: ts ++ [f.current] := by
  obtain ⟨p, hp⟩ := tracked_rule (e := e) (s := s)
  have hwhole : (e.whole recordingRules).Runs (Cursor.recording s) t (e.recorded s).cursor :=
    runs_iff.mpr ⟨h, rfl⟩
  obtain ⟨d', hrule, hlast⟩ := runs_whole hwhole
  obtain ⟨hresult, rfl⟩ := runs_iff.mp hrule
  have hparser : e.parser.Runs (Cursor.ofSource s) t _ :=
    runs_iff.mpr ⟨result_recorded.symm.trans h, rfl⟩
  obtain ⟨d, hd, hdend⟩ := (runs_iff_reaches_end e).mp ⟨_, hparser⟩
  have hcursor : (e.rule recordingRules (Cursor.recording s)).cursor.plain = d :=
    (congrArg Outcome.cursor (e.plain_rule s)).trans (runs_iff.mp hd).2
  obtain rfl := hp.consumes.eq_of_atEnd (hcursor ▸ hdend) hts hend
  rcases hlast with ⟨-, hlast⟩ | ⟨-, hlast⟩
  · have hcount : (outermost.after p).count f.current.kind = 0 := by
      rw [hend, count_of_le (Nat.le_refl _), (hp.success t hresult).inside.total_eq]
    rw [hlast]
    refine ⟨p ++ [f.current], ⟨?_, hp.capped.advance⟩, List.prefix_append .., List.prefix_rfl⟩
    rw [Cursor.record_advance, hp.record, hp.closed, counts_append, counts_cons, hcount]
    rfl
  · rw [hlast]
    exact ⟨p, ⟨hp.record, hp.capped⟩, List.prefix_rfl, List.prefix_append ..⟩

/-- A failure has consumed everything in front of the offending token. -/
theorem recorded_error {err : ParseError} (h : (e.recorded s).result = .error err) :
    ∃ p, (e.recorded s).cursor.HasCounted p ∧ p ++ [err.token] <+: ts ++ [f.current] ∧
      (err.expected = .nesting →
        (outermost.after p).total = maxNesting ∧ (outermost.after p).Opens err.token.kind) := by
  obtain ⟨p, hp⟩ := tracked_rule (e := e) (s := s)
  have hparser : e.parser.Fails (Cursor.ofSource s) err (e.recorded s).cursor.plain := by
    rw [fails_iff, ← e.plain_recorded]
    exact ⟨h, rfl⟩
  obtain ⟨-, -, htoken, -⟩ := behind_of_fails hparser
  have hwhole : (e.whole recordingRules).Fails (Cursor.recording s) err (e.recorded s).cursor :=
    fails_iff.mpr ⟨h, rfl⟩
  have hstop : (e.rule recordingRules (Cursor.recording s)).cursor = (e.recorded s).cursor := by
    rcases fails_whole hwhole with hrule | ⟨_, hrule, -, -⟩
    · exact (fails_iff.mp hrule).2
    · exact (runs_iff.mp hrule).2
  have hconsumes := hp.consumes
  rw [hstop] at hconsumes
  refine ⟨p, hstop ▸ ⟨hp.record, hp.capped⟩, ?_, fun hnesting => ?_⟩
  · obtain ⟨vs, rfl, hvs⟩ := hconsumes.prefix_of_atEnd hts hend
    rw [htoken, List.append_assoc]
    exact (List.prefix_append_right_inj _).mpr hvs.current_prefix
  · rcases fails_whole hwhole with hrule | ⟨_, -, -, rfl⟩
    · have hmissing := hp.missing err (fails_iff.mp hrule).1 hnesting
      rw [hstop] at hmissing
      rw [htoken]
      exact hmissing
    · cases hnesting

theorem recorded_steps :
    ∃ p, (e.recorded s).cursor.HasCounted p ∧ p <+: ts ++ [f.current] ∧
      (∀ t, (e.recorded s).result = .ok t → ts <+: p) ∧
      ∀ err, (e.recorded s).result = .error err → p ++ [err.token] <+: ts ++ [f.current] := by
  rcases hresult : (e.recorded s).result with err | t
  · obtain ⟨p, hp, hplace, -⟩ := recorded_error hts hend hresult
    refine ⟨p, hp, (List.prefix_append ..).trans hplace, nofun, fun err' h => ?_⟩
    cases h
    exact hplace
  · obtain ⟨p, hp, hall, hplace⟩ := recorded_ok hts hend hresult
    exact ⟨p, hp, hplace, fun _ _ => hall, nofun⟩

/-- An error about the levels is at the first token too deep. -/
theorem firstTooDeep_of_error {x : Token}
    (h : (e.recorded s).result = .error ⟨x, .nesting⟩) : FirstTooDeep ts x := by
  obtain ⟨p, hp, hplace, hmissing⟩ := recorded_error hts hend h
  obtain ⟨htotal, hopens⟩ := hmissing rfl
  obtain ⟨rest, hrest⟩ : p ++ [x] <+: ts := by
    refine (List.prefix_concat_iff.mp hplace).resolve_left fun heq => ?_
    obtain ⟨-, hx⟩ := List.append_inj' heq rfl
    exact hopens.kind_ne (by rw [List.singleton_inj.mp hx, hend])
  exact ⟨p, rest, by rw [← hrest, List.append_assoc]; rfl, hp.counts_le, htotal, hopens⟩

theorem result_eq_ok {t : e.Tree} :
    (e.parser (Cursor.ofSource s)).result = .ok t ↔ e.Derives ts t ∧ e.nesting t ≤ maxNesting := by
  rw [← runs_iff_derives e hts hend]
  constructor
  · exact fun h => ⟨_, runs_iff.mpr ⟨h, rfl⟩⟩
  · rintro ⟨d, h⟩
    exact (runs_iff.mp h).1

/-- A sentence that does not fit into the levels fails for that reason. -/
theorem error_of_nesting {t : e.Tree} (h : e.Derives ts t) (hn : maxNesting < e.nesting t) :
    ∃ x, (e.parser (Cursor.ofSource s)).result = .error ⟨x, .nesting⟩ := by
  have hshort := e.related_rule (related_rulesWithin (σ := σ) (Nat.le_of_lt hn))
  rw [rule_rulesWithin, rule_rulesWithin] at hshort
  have hruns : (e.production (e.nesting t)).Runs (Cursor.ofSource s) t f :=
    h.runs (Nat.le_refl _) hts hend
  rcases hshort (Cursor.ofSource s) with heq | ⟨d, hfails⟩
  · have hproduction := (runs_congr heq).mpr hruns
    have hparser := (runs_iff_reaches_end e).mpr ⟨f, hproduction, hend⟩
    exact absurd ((runs_iff_derives e hts hend).mp hparser).2 (Nat.not_le_of_lt hn)
  · rw [← rule_rulesWithin] at hfails
    have hparser := rule_fails_whole hfails
    rw [whole_rulesWithin] at hparser
    exact ⟨d.current, (fails_iff.mp hparser).1⟩

end Parse

/-! ## The cap -/

/-- The cap on nesting is exact for the parse of `s`, the tokens `ts` and then
the end of the input `eof`, that ends with `answer`. -/
structure CapIsExact (e : Entry) (s : σ) (ts : List Token) (eof : Token)
    (answer : Except ParseError e.Tree) : Prop where
  /-- The recorded parse is the one of a parser object, -/
  counted : (e.recorded s).unrecorded = e.whole countingRules (Cursor.fresh s)
  /-- and ends with the answer. -/
  answered : (e.recorded s).result = answer
  /-- The counter never exceeds the cap, -/
  peak_le : (e.recorded s).cursor.peak ≤ maxNesting
  /-- and is the count at each token that is consumed. In the beginning it is
  zero. A success consumes all tokens, a failure those in front of the offending
  one. -/
  steps : ∃ p, (e.recorded s).cursor.record = 0 :: outermost.counts p ∧ p <+: ts ++ [eof] ∧
    (∀ t, answer = .ok t → ts <+: p) ∧ ∀ err, answer = .error err → p ++ [err.token] <+: ts ++ [eof]
  /-- The tree of a sentence is as deep as the count is high. -/
  depth : ∀ t, e.Derives ts t → ∀ n, (∀ m ∈ outermost.counts ts, m ≤ n) ↔ e.nesting t ≤ n
  /-- A sentence is accepted if and only if the count stays within the cap. -/
  accepted : ∀ t, e.Derives ts t → (answer = .ok t ↔ ∀ m ∈ outermost.counts ts, m ≤ maxNesting)
  /-- If it does not, the error is about the nesting. -/
  rejected : ∀ t, e.Derives ts t → (¬∀ m ∈ outermost.counts ts, m ≤ maxNesting) →
    ∃ x, answer = .error ⟨x, .nesting⟩
  /-- Such an error is always at the first token too deep. -/
  nesting : ∀ x, answer = .error ⟨x, .nesting⟩ → FirstTooDeep ts x

theorem capIsExact (e : Entry) {s : σ} {ts : List Token} {f : Cursor σ}
    (hts : (Cursor.ofSource s).Consumes ts f) (hend : f.current.kind = .endOfInput) :
    e.CapIsExact s ts f.current (e.parser (Cursor.ofSource s)).result := by
  obtain ⟨p, hp, hplace, hok, herror⟩ := recorded_steps (e := e) hts hend
  rw [result_recorded] at hok herror
  refine ⟨e.unrecorded_recorded s, result_recorded, hp.capped.peak_le,
    ⟨p, hp.record_eq, hplace, hok, herror⟩, fun t ht => ht.counts_le_iff, fun t ht => ?_,
    fun t ht hdeep => ?_, fun x hx => ?_⟩
  · rw [ht.counts_le_iff, result_eq_ok hts hend]
    exact and_iff_right ht
  · rw [ht.counts_le_iff] at hdeep
    exact error_of_nesting hts hend ht (Nat.lt_of_not_le hdeep)
  · exact firstTooDeep_of_error hts hend (result_recorded.trans hx)

/-- The cap on nesting is exact for every text and every other source of
tokens, whatever is parsed. -/
theorem nesting_cap_exact (e : Entry) :
    (∀ text, ∃ eof, tokenize text = lexemes text ++ [eof] ∧
      e.CapIsExact (Scanner.ofText text) (lexemes text) eof (e.parseText text)) ∧
    ∀ {σ : Type} [TokenSource σ] (s : σ), ∃ ts eof, TokenSource.drain s = ts ++ [eof] ∧
      (∀ x ∈ ts, x.kind ≠ .endOfInput) ∧ eof.kind = .endOfInput ∧
      e.CapIsExact s ts eof (e.parser.run s).result := by
  constructor
  · intro text
    obtain ⟨ts, q, hlexes⟩ := exists_lexes .start text.toList
    obtain ⟨f, hts, hend⟩ := hlexes.consumes
    rw [hlexes.tokenize_eq, hlexes.lexemes_eq, parseText_eq_result]
    exact ⟨_, rfl, hend ▸ e.capIsExact hts (by rw [hend]; rfl)⟩
  · intro σ _ s
    obtain ⟨ts, f, hts, hend⟩ := (Cursor.ofSource s).consumes_to_end
    exact ⟨ts, f.current, hts.drain hend, hts.kind_ne, hend, e.capIsExact hts hend⟩

end Entry

end WorkflowScript
