import WorkflowScript.Grammar.Parser

/-!
# Runs of parsers

What a parser does, as three relations that forget the events on the way:
`Cursor.Consumes` (which tokens lie between two cursors), `Parser.Runs`
(the parser succeeds here, with this value, and stops there) and
`Parser.Fails`. For every primitive and for sequencing there is one lemma
that says exactly when it runs and when it fails; proofs about productions
use these and never unfold a primitive.

Nothing here depends on which source the tokens come from.
-/

namespace WorkflowScript

open TokenSource (next)

/-! ## Consumed tokens -/

namespace Cursor

variable {σ : Type} [TokenSource σ]

/-- Consuming the tokens `ts`, none of which is the end of the input, leads
from one cursor to the other. -/
def Consumes : Cursor σ → List Token → Cursor σ → Prop
  | c, [], c' => c' = c
  | c, t :: ts, c' =>
    c.current = t ∧ t.kind ≠ .endOfInput ∧ c.advance.Consumes ts c'

@[simp] theorem consumes_nil {c c' : Cursor σ} : c.Consumes [] c' ↔ c' = c := Iff.rfl

@[simp] theorem consumes_cons {c c' : Cursor σ} {t : Token} {ts : List Token} :
    c.Consumes (t :: ts) c' ↔
      c.current = t ∧ t.kind ≠ .endOfInput ∧ c.advance.Consumes ts c' := Iff.rfl

theorem Consumes.refl (c : Cursor σ) : c.Consumes [] c := rfl

/-- A token that is not the end of the input can be consumed. -/
theorem consumes_current {c : Cursor σ} (h : c.current.kind ≠ .endOfInput) :
    c.Consumes [c.current] c.advance :=
  ⟨rfl, h, rfl⟩

theorem consumes_append {ts us : List Token} {c e : Cursor σ} :
    c.Consumes (ts ++ us) e ↔ ∃ d, c.Consumes ts d ∧ d.Consumes us e := by
  induction ts generalizing c with
  | nil => simp
  | cons t ts ih => simp [ih, and_assoc]

theorem Consumes.append {ts us : List Token} {c d e : Cursor σ} (h : c.Consumes ts d)
    (h' : d.Consumes us e) : c.Consumes (ts ++ us) e :=
  consumes_append.mpr ⟨d, h, h'⟩

/-- The tokens decide where consuming them leads. -/
theorem Consumes.unique {ts : List Token} {c d e : Cursor σ} (h : c.Consumes ts d)
    (h' : c.Consumes ts e) : d = e := by
  induction ts generalizing c with
  | nil => exact h.trans h'.symm
  | cons t ts ih => exact ih h.2.2 h'.2.2

/-- Whatever has been consumed lies in front of everything up to the end of
the input. -/
theorem Consumes.prefix_of_atEnd {ts us : List Token} {c d e : Cursor σ}
    (h : c.Consumes ts d) (hall : c.Consumes us e) (hend : e.current.kind = .endOfInput) :
    ∃ vs, us = ts ++ vs ∧ d.Consumes vs e := by
  induction ts generalizing c us with
  | nil =>
      obtain rfl := h
      exact ⟨us, rfl, hall⟩
  | cons t ts ih =>
      obtain ⟨rfl, hne, hrest⟩ := h
      cases us with
      | nil =>
          obtain rfl := hall
          exact absurd hend hne
      | cons u us =>
          obtain ⟨rfl, -, hall'⟩ := hall
          obtain ⟨vs, rfl, hvs⟩ := ih hrest hall'
          exact ⟨vs, rfl, hvs⟩

/-- Between a cursor and the end of the input lies one sequence only. -/
theorem Consumes.eq_of_atEnd {ts us : List Token} {c d e : Cursor σ}
    (h : c.Consumes ts d) (hd : d.current.kind = .endOfInput) (h' : c.Consumes us e)
    (he : e.current.kind = .endOfInput) : ts = us := by
  obtain ⟨vs, rfl, hvs⟩ := h.prefix_of_atEnd h' he
  cases vs with
  | nil => simp
  | cons v vs =>
      obtain ⟨rfl, hne, -⟩ := hvs
      exact absurd hd hne

/-- Every consumed token makes a cursor smaller. -/
theorem Consumes.size_le {ts : List Token} {c d : Cursor σ} (h : c.Consumes ts d) :
    d.size + ts.length ≤ c.size := by
  induction ts generalizing c with
  | nil =>
      obtain rfl := h
      exact Nat.le_refl _
  | cons t ts ih =>
      obtain ⟨rfl, hne, hrest⟩ := h
      have hlt := c.size_advance_lt (by simpa [Token.isEnd] using hne)
      have hle := ih hrest
      simp only [List.length_cons]
      omega

/-- Two cursors decide the tokens between them. -/
theorem Consumes.tokens_unique {ts us : List Token} {c d : Cursor σ} (h : c.Consumes ts d)
    (h' : c.Consumes us d) : ts = us := by
  induction ts generalizing c us with
  | nil =>
      obtain rfl := h
      have hle := h'.size_le
      exact (List.length_eq_zero_iff.mp (by omega)).symm
  | cons t ts ih =>
      cases us with
      | nil =>
          obtain rfl := h'
          have hle := h.size_le
          simp only [List.length_cons] at hle
          omega
      | cons u us => rw [← h.1, h'.1, ih h.2.2 h'.2.2]

theorem Consumes.kind_ne {ts : List Token} {c d : Cursor σ} (h : c.Consumes ts d) :
    ∀ t ∈ ts, t.kind ≠ .endOfInput := by
  induction ts generalizing c with
  | nil => nofun
  | cons t ts ih => exact List.forall_mem_cons.mpr ⟨h.2.1, ih h.2.2⟩

theorem Consumes.current_prefix {ts : List Token} {c d : Cursor σ} (h : c.Consumes ts d) :
    [c.current] <+: ts ++ [d.current] := by
  cases ts with
  | nil =>
      obtain rfl := h
      exact List.prefix_rfl
  | cons t ts =>
      obtain ⟨rfl, -, -⟩ := h
      exact ⟨ts ++ [d.current], rfl⟩

/-- From every cursor the end of the input can be reached. -/
theorem consumes_to_end (c : Cursor σ) :
    ∃ ts d, c.Consumes ts d ∧ d.current.kind = .endOfInput := by
  by_cases hend : c.current.kind = .endOfInput
  · exact ⟨[], c, rfl, hend⟩
  · have hlt := c.size_advance_lt (by simpa [Token.isEnd] using hend)
    obtain ⟨ts, d, hts, hd⟩ := consumes_to_end c.advance
    exact ⟨c.current :: ts, d, ⟨rfl, hend, hts⟩, hd⟩
termination_by c.size

end Cursor

/-! ## Successes and failures -/

namespace Parser

variable {σ α β : Type}

/-- The parser succeeds at `c` with the value `a` and stops at `c'`. -/
def Runs (p : Parser σ α) (c : Cursor σ) (a : α) (c' : Cursor σ) : Prop :=
  ∃ events, p c = ⟨.ok a, events, c'⟩

/-- The parser fails at `c` with the error `e` and stops at `c'`. -/
def Fails (p : Parser σ α) (c : Cursor σ) (e : ParseError) (c' : Cursor σ) : Prop :=
  ∃ events, p c = ⟨.error e, events, c'⟩

theorem runs_or_fails (p : Parser σ α) (c : Cursor σ) :
    (∃ a c', p.Runs c a c') ∨ ∃ e c', p.Fails c e c' := by
  rcases h : p c with ⟨result, events, c'⟩
  cases result with
  | ok a => exact .inl ⟨a, c', events, h⟩
  | error e => exact .inr ⟨e, c', events, h⟩

theorem Runs.unique {p : Parser σ α} {c d e : Cursor σ} {a b : α} (h : p.Runs c a d)
    (h' : p.Runs c b e) : a = b ∧ d = e := by
  obtain ⟨_, h⟩ := h
  obtain ⟨_, h'⟩ := h'
  cases h.symm.trans h'
  exact ⟨rfl, rfl⟩

theorem runs_iff {p : Parser σ α} {c c' : Cursor σ} {a : α} :
    p.Runs c a c' ↔ (p c).result = .ok a ∧ (p c).cursor = c' := by
  constructor
  · rintro ⟨events, h⟩
    rw [h]
    exact ⟨rfl, rfl⟩
  · rintro ⟨hr, hc⟩
    exact ⟨(p c).events, by rw [← hr, ← hc]⟩

theorem fails_iff {p : Parser σ α} {c c' : Cursor σ} {e : ParseError} :
    p.Fails c e c' ↔ (p c).result = .error e ∧ (p c).cursor = c' := by
  constructor
  · rintro ⟨events, h⟩
    rw [h]
    exact ⟨rfl, rfl⟩
  · rintro ⟨hr, hc⟩
    exact ⟨(p c).events, by rw [← hr, ← hc]⟩

/-- Parsers that do the same at a cursor run the same there. -/
theorem runs_congr {p q : Parser σ α} {c c' : Cursor σ} {a : α} (h : p c = q c) :
    p.Runs c a c' ↔ q.Runs c a c' := by
  rw [Runs, Runs, h]

theorem fails_congr {p q : Parser σ α} {c c' : Cursor σ} {e : ParseError} (h : p c = q c) :
    p.Fails c e c' ↔ q.Fails c e c' := by
  rw [Fails, Fails, h]

/-! ### Sequencing -/

theorem bind_apply_ok {p : Parser σ α} {f : α → Parser σ β} {c d : Cursor σ} {a : α}
    {events : List Event} (h : p c = ⟨.ok a, events, d⟩) :
    (p >>= f) c = (f a d).after events := by
  change Parser.bind p f c = _
  rw [Parser.bind, h]

theorem bind_apply_error {p : Parser σ α} {f : α → Parser σ β} {c d : Cursor σ}
    {e : ParseError} {events : List Event} (h : p c = ⟨.error e, events, d⟩) :
    (p >>= f) c = ⟨.error e, events, d⟩ := by
  change Parser.bind p f c = _
  rw [Parser.bind, h]

theorem after_after (events events' : List Event) (o : Outcome σ α) :
    (o.after events').after events = o.after (events ++ events') := by
  simp [Outcome.after]

theorem bind_bind {γ : Type} (p : Parser σ α) (f : α → Parser σ β) (g : β → Parser σ γ) :
    p >>= f >>= g = p >>= fun a => f a >>= g := by
  funext c
  rcases h : p c with ⟨e | a, events, d⟩
  · rw [bind_apply_error (bind_apply_error h), bind_apply_error h]
  · rw [bind_apply_ok h]
    rcases h' : f a d with ⟨e | b, events', d'⟩
    · rw [bind_apply_error h', bind_apply_error (by rw [bind_apply_ok h, h']; rfl)]
      rfl
    · rw [bind_apply_ok h', after_after, bind_apply_ok (by rw [bind_apply_ok h, h']; rfl)]

@[simp] theorem runs_bind {p : Parser σ α} {f : α → Parser σ β} {c e : Cursor σ} {b : β} :
    (p >>= f).Runs c b e ↔ ∃ a d, p.Runs c a d ∧ (f a).Runs d b e := by
  constructor
  · rintro ⟨events, h⟩
    rcases p.runs_or_fails c with ⟨a, d, ev, hp⟩ | ⟨err, d, ev, hp⟩
    · rw [bind_apply_ok hp] at h
      refine ⟨a, d, ⟨ev, hp⟩, runs_iff.mpr ?_⟩
      simpa [Outcome.after] using And.intro (congrArg Outcome.result h) (congrArg Outcome.cursor h)
    · rw [bind_apply_error hp] at h
      cases h
  · rintro ⟨a, d, ⟨ev, hp⟩, ev', hf⟩
    exact ⟨ev ++ ev', by rw [bind_apply_ok hp, hf]; rfl⟩

@[simp] theorem fails_bind {p : Parser σ α} {f : α → Parser σ β} {c c' : Cursor σ}
    {e : ParseError} :
    (p >>= f).Fails c e c' ↔
      p.Fails c e c' ∨ ∃ a d, p.Runs c a d ∧ (f a).Fails d e c' := by
  constructor
  · rintro ⟨events, h⟩
    rcases p.runs_or_fails c with ⟨a, d, ev, hp⟩ | ⟨err, d, ev, hp⟩
    · rw [bind_apply_ok hp] at h
      refine .inr ⟨a, d, ⟨ev, hp⟩, fails_iff.mpr ?_⟩
      simpa [Outcome.after] using And.intro (congrArg Outcome.result h) (congrArg Outcome.cursor h)
    · rw [bind_apply_error hp] at h
      cases h
      exact .inl ⟨_, hp⟩
  · rintro (⟨ev, hp⟩ | ⟨a, d, ⟨ev, hp⟩, ev', hf⟩)
    · exact ⟨ev, bind_apply_error hp⟩
    · exact ⟨ev ++ ev', by rw [bind_apply_ok hp, hf]; rfl⟩

@[simp] theorem runs_pure {a b : α} {c c' : Cursor σ} :
    (pure a : Parser σ α).Runs c b c' ↔ b = a ∧ c' = c := by
  constructor
  · rintro ⟨_, h⟩
    cases h
    exact ⟨rfl, rfl⟩
  · rintro ⟨rfl, rfl⟩
    exact ⟨[], rfl⟩

@[simp] theorem not_fails_pure {a : α} {c c' : Cursor σ} {e : ParseError} :
    ¬(pure a : Parser σ α).Fails c e c' := by
  rintro ⟨_, h⟩
  cases h

/-- Two parts of one value, one behind the other. -/
theorem Runs.both {γ : Type} {p : Parser σ α} {q : Parser σ β} {f : α → β → γ}
    {c d e : Cursor σ} {a : α} {b : β} (hp : p.Runs c a d) (hq : q.Runs d b e) :
    (p >>= fun x => q >>= fun y => pure (f x y)).Runs c (f a b) e :=
  runs_bind.mpr ⟨a, d, hp, runs_bind.mpr ⟨b, e, hq, runs_pure.mpr ⟨rfl, rfl⟩⟩⟩

theorem map_eq_bind (f : α → β) (p : Parser σ α) :
    f <$> p = p >>= fun a => pure (f a) := rfl

@[simp] theorem runs_map {f : α → β} {p : Parser σ α} {c d : Cursor σ} {b : β} :
    (f <$> p).Runs c b d ↔ ∃ a, p.Runs c a d ∧ b = f a := by
  rw [map_eq_bind, runs_bind]
  constructor
  · rintro ⟨a, d', hp, hf⟩
    obtain ⟨rfl, rfl⟩ := runs_pure.mp hf
    exact ⟨a, hp, rfl⟩
  · rintro ⟨a, hp, rfl⟩
    exact ⟨a, d, hp, runs_pure.mpr ⟨rfl, rfl⟩⟩

/-! ### Primitives -/

@[simp] theorem runs_peek {k : TokenKind} {c c' : Cursor σ} :
    (peek : Parser σ TokenKind).Runs c k c' ↔ k = c.current.kind ∧ c' = c := by
  constructor
  · rintro ⟨_, h⟩
    cases h
    exact ⟨rfl, rfl⟩
  · rintro ⟨rfl, rfl⟩
    exact ⟨[], rfl⟩

/-- A parser that looks first behaves as its continuation for that kind. -/
theorem peek_bind_apply (f : TokenKind → Parser σ α) (c : Cursor σ) :
    (peek >>= f) c = f c.current.kind c := rfl

@[simp] theorem runs_peek_bind {f : TokenKind → Parser σ α} {a : α} {c c' : Cursor σ} :
    (peek >>= f).Runs c a c' ↔ (f c.current.kind).Runs c a c' := Iff.rfl

@[simp] theorem fails_peek_bind {f : TokenKind → Parser σ α} {e : ParseError}
    {c c' : Cursor σ} :
    (peek >>= f).Fails c e c' ↔ (f c.current.kind).Fails c e c' := Iff.rfl

theorem place_bind_apply (f : Position → Parser σ α) (c : Cursor σ) :
    (place >>= f) c = f c.current.position c := rfl

@[simp] theorem runs_notify {event : Event} {u : Unit} {c c' : Cursor σ} :
    (notify event : Parser σ Unit).Runs c u c' ↔ c' = c := by
  constructor
  · rintro ⟨_, h⟩
    cases h
    rfl
  · rintro rfl
    exact ⟨[event], rfl⟩

@[simp] theorem not_fails_notify {event : Event} {c c' : Cursor σ} {e : ParseError} :
    ¬(notify event : Parser σ Unit).Fails c e c' := by
  rintro ⟨_, h⟩
  cases h

@[simp] theorem not_runs_unexpected {expected : Expected} {a : α} {c c' : Cursor σ} :
    ¬(unexpected expected : Parser σ α).Runs c a c' := by
  rintro ⟨_, h⟩
  cases h

@[simp] theorem fails_unexpected {expected : Expected} {e : ParseError} {c c' : Cursor σ} :
    (unexpected expected : Parser σ α).Fails c e c' ↔ e = ⟨c.current, expected⟩ ∧ c' = c := by
  constructor
  · rintro ⟨_, h⟩
    cases h
    exact ⟨rfl, rfl⟩
  · rintro ⟨rfl, rfl⟩
    exact ⟨[], rfl⟩

variable [TokenSource σ]

@[simp] theorem runs_advance {t : Token} {c c' : Cursor σ} :
    (advance : Parser σ Token).Runs c t c' ↔ t = c.current ∧ c' = c.advance := by
  constructor
  · rintro ⟨_, h⟩
    cases h
    exact ⟨rfl, rfl⟩
  · rintro ⟨rfl, rfl⟩
    exact ⟨_, rfl⟩

@[simp] theorem not_fails_advance {c c' : Cursor σ} {e : ParseError} :
    ¬(advance : Parser σ Token).Fails c e c' := by
  rintro ⟨_, h⟩
  cases h

@[simp] theorem runs_expect {k : TokenKind} {t : Token} {c c' : Cursor σ} :
    (expect k : Parser σ Token).Runs c t c' ↔
      c.current.kind = k ∧ t = c.current ∧ c' = c.advance := by
  rw [expect, runs_peek_bind]
  by_cases h : c.current.kind = k <;> simp [h]

@[simp] theorem fails_expect {k : TokenKind} {e : ParseError} {c c' : Cursor σ} :
    (expect k : Parser σ Token).Fails c e c' ↔
      c.current.kind ≠ k ∧ e = ⟨c.current, .kind k⟩ ∧ c' = c := by
  rw [expect, fails_peek_bind]
  by_cases h : c.current.kind = k <;> simp [h]

theorem runs_advance_bind {f : Token → Parser σ α} {a : α} {c c' : Cursor σ} :
    (advance >>= f).Runs c a c' ↔ (f c.current).Runs c.advance a c' := by
  simp [and_assoc]

theorem runs_expect_bind {k : TokenKind} {f : Token → Parser σ α} {a : α} {c c' : Cursor σ} :
    (expect k >>= f).Runs c a c' ↔ c.current.kind = k ∧ (f c.current).Runs c.advance a c' := by
  simp [and_assoc]

theorem expect_bind_apply (k : TokenKind) (f : Token → Parser σ α) (c : Cursor σ) :
    (expect k >>= f) c =
      if c.current.kind = k then (advance >>= f) c else unexpected (.kind k) c := by
  rw [expect, bind_bind, peek_bind_apply]
  split <;> rfl

theorem accept_bind_apply (k : TokenKind) (f : Bool → Parser σ α) (c : Cursor σ) :
    (accept k >>= f) c =
      if c.current.kind = k then (advance >>= fun _ => f true) c else f false c := by
  rw [accept, bind_bind, peek_bind_apply]
  split
  · rw [bind_bind]
    rfl
  · rfl

@[simp] theorem runs_accept {k : TokenKind} {b : Bool} {c c' : Cursor σ} :
    (accept k : Parser σ Bool).Runs c b c' ↔
      c.current.kind = k ∧ b = true ∧ c' = c.advance ∨
        c.current.kind ≠ k ∧ b = false ∧ c' = c := by
  rw [accept, runs_peek_bind]
  by_cases h : c.current.kind = k <;> simp [h, and_comm]

@[simp] theorem not_fails_accept {k : TokenKind} {e : ParseError} {c c' : Cursor σ} :
    ¬(accept k : Parser σ Bool).Fails c e c' := by
  rw [accept, fails_peek_bind]
  by_cases h : c.current.kind = k <;> simp [h]

theorem runs_accept_bind_pos {k : TokenKind} {f : Bool → Parser σ α} {a : α} {c c' : Cursor σ}
    (h : c.current.kind = k) : (accept k >>= f).Runs c a c' ↔ (f true).Runs c.advance a c' := by
  simp [h]

theorem runs_accept_bind_neg {k : TokenKind} {f : Bool → Parser σ α} {a : α} {c c' : Cursor σ}
    (h : c.current.kind ≠ k) : (accept k >>= f).Runs c a c' ↔ (f false).Runs c a c' := by
  simp [h]

end Parser

end WorkflowScript
