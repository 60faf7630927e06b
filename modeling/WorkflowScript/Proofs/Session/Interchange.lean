import WorkflowScript.Proofs.Session.Soundness
import WorkflowScript.Proofs.Token.Lexing

/-!
# A scanner and its tokens are interchangeable

A scanner reads its text again each time that it is asked, and at the end of
the text it keeps answering with the end. A stream over the tokens of the
text has them ready, and keeps answering with the place of its last one.
Nobody who pulls tokens can tell the two apart (`pull_tokenize`).

Neither can a parser. Two cursors on the `SameTokens` may have sources of
different types, so parsers on them are compared by what they do: they decide
by one token of lookahead (`Alike`), and therefore stop at the same token with
the same verdict, and what they answer with is the one tree of the tokens they
have consumed. With `Twin` for every step the sessions follow by induction.
-/

namespace WorkflowScript

open WorkflowScript.Lexical WorkflowScript.Language WorkflowScript.Parser
open TokenSource (next pull)

variable {σ τ α β : Type} [TokenSource σ] [TokenSource τ]

/-! ## Pulling from a text and from its tokens -/

theorem TokenSource.pull_succ (n : Nat) (s : σ) :
    pull (n + 1) s = (next s).1 :: pull n (next s).2 := rfl

/-- A scanner at the end of its text stays there. -/
theorem Scanner.pull_nil (n : Nat) (p last : Position) (h : last = p) :
    pull n (⟨[], last⟩ : TokenStream) = pull n (⟨[], p⟩ : Scanner) := by
  subst h
  induction n with
  | zero => rfl
  | succ n ih => rw [TokenSource.pull_succ, TokenSource.pull_succ]; exact congrArg _ ih

/-- The tokens of a text and the end of the input behind them are what the
scanner gives, however many are asked for. -/
theorem Lexes.pull_eq {p q : Position} {cs : List Char} {ts : List Token} (h : Lexes p cs ts q) :
    ∀ n last, pull n (⟨ts ++ [.atEnd q], last⟩ : TokenStream) = pull n (⟨cs, p⟩ : Scanner) := by
  induction h with
  | @nil p gap hgap =>
      intro n last
      cases n with
      | zero => rfl
      | succ n =>
          have hnext := Scanner.next_trivia hgap p
          rw [List.append_nil] at hnext
          rw [TokenSource.pull_succ, TokenSource.pull_succ]
          simp only [TokenSource.next, hnext]
          exact congrArg _ (Scanner.pull_nil n _ _ rfl)
  | @cons p gap rest t ts q hgap hsplits hp _ ih =>
      intro n last
      cases n with
      | zero => rfl
      | succ n =>
          have hnext : Scanner.next ⟨gap ++ (t.text.toList ++ rest), p⟩ =
              (t, ⟨rest, t.position.advanceBy t.text.toList⟩) := by
            rw [Scanner.next_trivia hgap, ← hp, Scanner.next_splits hsplits, String.ofList_toList]
          rw [TokenSource.pull_succ, TokenSource.pull_succ]
          simp only [TokenSource.next, hnext]
          exact congrArg _ (ih n _)

theorem pull_tokenize (text : String) (n : Nat) :
    pull n (TokenStream.ofList (tokenize text)) = pull n (Scanner.ofText text) := by
  obtain ⟨ts, q, h⟩ := exists_lexes .start text.toList
  rw [h.tokenize_eq]
  exact h.pull_eq n .start

/-! ## Cursors on the same tokens -/

/-- The lookahead is the same, and so is every token that can be pulled. -/
structure Cursor.SameTokens (c : Cursor σ) (d : Cursor τ) : Prop where
  current : d.current = c.current
  behind : ∀ n, pull n d.source = pull n c.source

namespace Cursor

/-- Sources that give the same tokens. -/
theorem SameTokens.ofSource {s : σ} {s' : τ} (h : ∀ n, pull n s' = pull n s) :
    (ofSource s).SameTokens (ofSource s') where
  current := List.head_eq_of_cons_eq (h 1)
  behind n := List.tail_eq_of_cons_eq (h (n + 1))

theorem SameTokens.advance {c : Cursor σ} {d : Cursor τ} (h : c.SameTokens d) :
    c.advance.SameTokens d.advance :=
  .ofSource h.behind

/-- What is consumed on one side can be consumed on the other. -/
theorem SameTokens.follow {c c' : Cursor σ} {d : Cursor τ} {ts : List Token}
    (h : c.SameTokens d) (hc : c.Consumes ts c') : ∃ d', d.Consumes ts d' ∧ c'.SameTokens d' := by
  induction ts generalizing c d with
  | nil =>
      obtain rfl := hc
      exact ⟨d, rfl, h⟩
  | cons t ts ih =>
      obtain ⟨hcur, hne, hrest⟩ := hc
      obtain ⟨d', hd', hsame⟩ := ih h.advance hrest
      exact ⟨d', ⟨h.current.trans hcur, hne, hd'⟩, hsame⟩

end Cursor

/-! ## Twins -/

namespace Parser

/-- On the same tokens both parsers have the same result and stop at the same
tokens. -/
def Twin (p : Parser σ α) (q : Parser τ α) : Prop :=
  ∀ c d, c.SameTokens d →
    (q d).result = (p c).result ∧ (p c).cursor.SameTokens (q d).cursor

/-- Parsers that stop alike, and find the one tree of what they consume. -/
theorem Twin.of_alike {p : Parser σ α} {q : Parser τ α} {L : Language α} {n : Nat}
    (h : Alike p q) (hp : Recognises anywhere p L n) (hq : Recognises anywhere q L n)
    (hone : ∀ {ts a b}, L n ts a → L n ts b → a = b) : Twin p q := by
  intro c d hcd
  obtain ⟨ts, hts, halike⟩ := h c
  obtain ⟨d', hd', hsame⟩ := hcd.follow hts
  obtain ⟨hcursor, hverdict⟩ := halike d d' ⟨⟨ts, rfl, hd'⟩, congrArg Token.kind hsame.current⟩
  rw [← hcursor] at hd' hsame
  refine ⟨?_, hsame⟩
  cases hpc : (p c).result with
  | error e =>
      cases hqd : (q d).result with
      | error e' =>
          obtain ⟨-, -, htoken, -⟩ := hp.fails trivial (fails_iff.mpr ⟨hpc, rfl⟩)
          obtain ⟨-, -, htoken', -⟩ := hq.fails trivial (fails_iff.mpr ⟨hqd, rfl⟩)
          rw [hpc, hqd] at hverdict
          obtain ⟨token, expected⟩ := e
          obtain ⟨token', expected'⟩ := e'
          obtain rfl : expected = expected' := hverdict
          obtain rfl : token' = token := (htoken'.trans hsame.current).trans htoken.symm
          rfl
      | ok b =>
          rw [hpc, hqd] at hverdict
          exact hverdict.elim
  | ok a =>
      cases hqd : (q d).result with
      | error e' =>
          rw [hpc, hqd] at hverdict
          exact hverdict.elim
      | ok b =>
          obtain ⟨us, hus, ha⟩ := hp.runs trivial (runs_iff.mpr ⟨hpc, rfl⟩)
          obtain rfl := hts.tokens_unique hus
          obtain ⟨vs, hvs, hb⟩ := hq.runs trivial (runs_iff.mpr ⟨hqd, rfl⟩)
          obtain rfl := hd'.tokens_unique hvs
          exact congrArg Except.ok (hone hb ha)

protected theorem Twin.bind {p : Parser σ α} {q : Parser τ α} {f : α → Parser σ β}
    {g : α → Parser τ β} (hp : Twin p q) (hf : ∀ a, Twin (f a) (g a)) :
    Twin (p >>= f) (q >>= g) := by
  intro c d hcd
  obtain ⟨hresult, hsame⟩ := hp c d hcd
  rcases hpc : p c with ⟨e | a, events, c'⟩
  · rcases hqd : q d with ⟨result, events', d'⟩
    rw [hpc, hqd] at hresult hsame
    obtain rfl : result = .error e := hresult
    rw [bind_apply_error hpc, bind_apply_error hqd]
    exact ⟨rfl, hsame⟩
  · rcases hqd : q d with ⟨result, events', d'⟩
    rw [hpc, hqd] at hresult hsame
    obtain rfl : result = .ok a := hresult
    rw [bind_apply_ok hpc, bind_apply_ok hqd]
    exact hf a c' d' hsame

protected theorem Twin.pure (a : α) : Twin (pure a : Parser σ α) (pure a : Parser τ α) :=
  fun _ _ hcd => ⟨rfl, hcd⟩

protected theorem Twin.map (f : α → β) {p : Parser σ α} {q : Parser τ α} (h : Twin p q) :
    Twin (f <$> p) (f <$> q) :=
  h.bind fun a => .pure (f a)

/-- The end of the input may be asked for, too: what is behind it is the
same. -/
theorem Twin.expect (k : TokenKind) :
    Twin (Parser.expect k : Parser σ Token) (Parser.expect k : Parser τ Token) := by
  intro c d hcd
  have hcur := hcd.current
  by_cases hk : c.current.kind = k
  · have hc := runs_iff.mp (runs_expect.mpr ⟨hk, rfl, rfl⟩ : (Parser.expect k).Runs c _ _)
    have hd := runs_iff.mp (runs_expect.mpr ⟨hcur ▸ hk, rfl, rfl⟩ : (Parser.expect k).Runs d _ _)
    rw [hc.1, hd.1, hc.2, hd.2, hcur]
    exact ⟨rfl, hcd.advance⟩
  · have hc := fails_iff.mp (fails_expect.mpr ⟨hk, rfl, rfl⟩ : (Parser.expect k).Fails c _ _)
    have hd := fails_iff.mp (fails_expect.mpr ⟨hcur ▸ hk, rfl, rfl⟩ : (Parser.expect k).Fails d _ _)
    rw [hc.1, hd.1, hc.2, hd.2, hcur]
    exact ⟨rfl, hcd⟩

end Parser

/-- Every production is its own twin on another source. -/
theorem Production.twin (p : Production) :
    Twin (p.parser : Parser σ Fragment) (p.parser : Parser τ Fragment) :=
  .of_alike p.alike p.recognises p.recognises Derives.unique

theorem Step.twin (step : Step) :
    Twin (step.parser : Parser σ (Option Fragment)) (step.parser : Parser τ (Option Fragment)) :=
  match step with
  | .production p => .map _ p.twin
  | .endOfInput => .bind (.expect _) fun _ => .pure _

/-! ## Sessions -/

theorem sameTokens_stopOfSteps (steps : List Step) {c : Cursor σ} {d : Cursor τ}
    (h : c.SameTokens d) : (stopOfSteps steps c).SameTokens (stopOfSteps steps d) := by
  induction steps generalizing c d with
  | nil => exact h
  | cons step steps ih => exact ih (step.twin c d h).2

/-- The counter is not pulled. -/
theorem Counted.pull_eq (n : Nat) (s : Counted σ) : pull n s = pull n s.source := by
  induction n generalizing s with
  | zero => rfl
  | succ n ih =>
      rw [TokenSource.pull_succ, TokenSource.pull_succ, ih]
      rfl

theorem Cursor.SameTokens.counting {c : Cursor σ} {d : Cursor τ} (h : c.SameTokens d)
    (opened : Nat) : (c.counting opened).SameTokens (d.counting opened) where
  current := h.current
  behind n := by
    rw [Counted.pull_eq, Counted.pull_eq]
    exact h.behind n

/-- One step of two sessions that have come to stand at `c` and `d`. -/
structure InStep (step : Step) (c : Cursor (Counted σ)) (d : Cursor (Counted τ)) : Prop where
  before : c.SameTokens d
  /-- The same tree, or the same error. -/
  result : (step.counting d).result = (step.counting c).result
  after : (step.counting c).cursor.SameTokens (step.counting d).cursor

/-- A scanner and a stream over all its tokens give the same tokens, past the
end of the input, too. And whatever a session does with the one parser object
or the other, the calls have the same results, and leave the same lookahead
and the same tokens behind it. -/
theorem scanner_stream_interchangeable (text : String) :
    (∀ n, pull n (TokenStream.ofList (tokenize text)) = pull n (Scanner.ofText text)) ∧
      ∀ before step, InStep step (stopOfCounting before (.fresh (Scanner.ofText text)))
        (stopOfCounting before (.fresh (TokenStream.ofList (tokenize text)))) := by
  refine ⟨pull_tokenize text, fun before step => ?_⟩
  rw [← Cursor.counting_ofSource, ← Cursor.counting_ofSource, stopOfCounting_counting,
    stopOfCounting_counting]
  have hsame := sameTokens_stopOfSteps before (.ofSource (pull_tokenize text))
  obtain ⟨hresult, hafter⟩ := step.twin _ _ hsame
  constructor
  · exact hsame.counting 0
  · rw [step.mirrors_counting, step.mirrors_counting]
    exact hresult
  · rw [step.mirrors_counting, step.mirrors_counting]
    exact hafter.counting 0

end WorkflowScript
