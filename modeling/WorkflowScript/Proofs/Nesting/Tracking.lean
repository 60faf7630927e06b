import WorkflowScript.Grammar.Recording
import WorkflowScript.Proofs.Nesting.Count
import WorkflowScript.Proofs.Parser.Recognition

/-!
# The counter is the count

`Tracks k s start p Q`: with `k` levels open and in the surroundings `s`,
wherever the lookahead is of a kind in `start`, the record that `p` keeps of
its counter is the count of open constructs at each token that it consumes.
The counter is at `k` again when `p` stops, and a success leaves surroundings
in `Q`. If a level is missing, there are as many constructs open as may be and
the lookahead opens one more.

There is one rule for each way of putting parsers together. A rule for a token
asks for the count at that token to be `k`; a level is opened in front of the
token that opens the construct (`Tracks.nested`), so this holds inside.
-/

namespace WorkflowScript

open WorkflowScript.Parser WorkflowScript.Grammar

variable {σ : Type}

/-! ## Cursors with a record -/

namespace Cursor

/-- No level is open or has ever been open beyond the cap. -/
structure Capped (c : Cursor (Recorded σ)) : Prop where
  opened_le : c.opened ≤ c.peak
  record_le : ∀ n ∈ c.record, n ≤ c.peak
  peak_le : c.peak ≤ maxNesting

theorem Capped.reopened {c : Cursor (Recorded σ)} (h : c.Capped) {n : Nat} (hn : n ≤ maxNesting) :
    (c.reopened n).Capped where
  opened_le := Nat.le_max_right ..
  record_le m hm := Nat.le_trans (h.record_le m hm) (Nat.le_max_left ..)
  peak_le := Nat.max_le.mpr ⟨h.peak_le, hn⟩

variable [TokenSource σ]

@[simp] theorem record_advance (c : Cursor (Recorded σ)) :
    c.advance.record = c.record ++ [c.opened] := rfl

theorem Capped.advance {c : Cursor (Recorded σ)} (h : c.Capped) : c.advance.Capped where
  opened_le := h.opened_le
  record_le n hn := by
    rcases List.mem_append.mp hn with hn | hn
    · exact h.record_le n hn
    · rw [List.mem_singleton.mp hn]
      exact h.opened_le
  peak_le := h.peak_le

end Cursor

namespace Parser

variable [TokenSource σ] {α β ω : Type}

/-! ## What is tracked -/

/-- What holds of an outcome that has come from the cursor `c` over the tokens
`ts`. -/
structure Tracked (k : Nat) (s : Surroundings) (c : Cursor (Recorded σ))
    (o : Outcome (Recorded σ) α) (ts : List Token) (Q : Surroundings → Prop) : Prop where
  consumes : c.plain.Consumes ts o.cursor.plain
  /-- The counter has said the count at each token. -/
  record : o.cursor.record = c.record ++ s.counts ts
  closed : o.cursor.opened = k
  capped : o.cursor.Capped
  success : ∀ a, o.result = .ok a → Q (s.after ts)
  /-- If a level was missing, the lookahead would have opened one too many. -/
  missing : ∀ e, o.result = .error e → e.expected = .nesting →
    (s.after ts).total = maxNesting ∧ (s.after ts).Opens o.cursor.current.kind

/-- Nothing has been consumed. -/
theorem Tracked.idle {k : Nat} {s : Surroundings} {c : Cursor (Recorded σ)}
    {o : Outcome (Recorded σ) α} {Q : Surroundings → Prop} (hcursor : o.cursor = c)
    (hk : c.opened = k) (hc : c.Capped) (success : ∀ a, o.result = .ok a → Q s)
    (missing : ∀ e, o.result = .error e → e.expected = .nesting →
      s.total = maxNesting ∧ s.Opens c.current.kind) : Tracked k s c o [] Q := by
  obtain ⟨result, events, d⟩ := o
  subst hcursor
  exact ⟨rfl, (List.append_nil _).symm, hk, hc, success, missing⟩

/-- What `p` consumes with `k` levels open and in the surroundings `s`, at a
lookahead of a kind in `start`, is tracked. -/
def Tracks (k : Nat) (s : Surroundings) (start : TokenKind → Prop) (p : Parser (Recorded σ) α)
    (Q : Surroundings → Prop) : Prop :=
  ∀ c : Cursor (Recorded σ), c.opened = k → c.Capped → start c.current.kind →
    ∃ ts, Tracked k s c (p c) ts Q

namespace Tracks

variable {k : Nat} {s s' : Surroundings} {start : TokenKind → Prop} {Q R : Surroundings → Prop}

theorem narrow {start' : TokenKind → Prop} {p : Parser (Recorded σ) α} (h : Tracks k s start p Q)
    (hs : ∀ {κ}, start' κ → start κ) : Tracks k s start' p Q :=
  fun c hk hc hstart => h c hk hc (hs hstart)

theorem mono {p : Parser (Recorded σ) α} (h : Tracks k s start p Q) (hQR : ∀ s, Q s → R s) :
    Tracks k s start p R := by
  intro c hk hc hstart
  obtain ⟨ts, hts⟩ := h c hk hc hstart
  exact ⟨ts, { hts with success := fun a ha => hQR _ (hts.success a ha) }⟩

/-! ### Sequencing -/

protected theorem pure (a : α) (h : Q s) :
    Tracks k s start (pure a : Parser (Recorded σ) α) Q :=
  fun _ hk hc _ => ⟨[], .idle rfl hk hc (fun _ _ => h) fun _ he => nomatch he⟩

/-- One behind the other. What is consumed, and the counts, are put together. -/
protected theorem bind {p : Parser (Recorded σ) α} {f : α → Parser (Recorded σ) β}
    (hp : Tracks k s start p Q) (hf : ∀ a s', Q s' → Tracks k s' anywhere (f a) R) :
    Tracks k s start (p >>= f) R := by
  intro c hk hc hstart
  obtain ⟨ts, hts⟩ := hp c hk hc hstart
  rcases hpc : p c with ⟨e | a, events, d⟩
  · rw [hpc] at hts
    rw [bind_apply_error hpc]
    refine ⟨ts, ⟨hts.consumes, hts.record, hts.closed, hts.capped, nofun, ?_⟩⟩
    rintro e' he
    cases he
    exact hts.missing e rfl
  · rw [hpc] at hts
    obtain ⟨us, hus⟩ := hf a _ (hts.success a rfl) d hts.closed hts.capped trivial
    rw [bind_apply_ok hpc]
    have hrecord : (f a d).cursor.record = c.record ++ s.counts (ts ++ us) := by
      rw [hus.record, hts.record, Surroundings.counts_append, List.append_assoc]
    refine ⟨ts ++ us, ⟨hts.consumes.append hus.consumes, hrecord, hus.closed, hus.capped, ?_, ?_⟩⟩
    · rw [Surroundings.after_append]
      exact hus.success
    · rw [Surroundings.after_append]
      exact hus.missing

/-- One behind the other, where it is known what the first one leaves. -/
theorem seq {p : Parser (Recorded σ) α} {f : α → Parser (Recorded σ) β}
    (hp : Tracks k s start p (· = s')) (hf : ∀ a, Tracks k s' anywhere (f a) R) :
    Tracks k s start (p >>= f) R :=
  hp.bind fun a _ hs => hs ▸ hf a

protected theorem map (f : α → β) {p : Parser (Recorded σ) α} (h : Tracks k s start p Q) :
    Tracks k s start (f <$> p) Q :=
  h.bind fun a _ hs => .pure (f a) hs

/-! ### Primitives -/

/-- The kind of the lookahead selects the parser. -/
theorem peek {f : TokenKind → Parser (Recorded σ) α}
    (h : ∀ κ, start κ → Tracks k s (· = κ) (f κ) Q) : Tracks k s start (Parser.peek >>= f) Q :=
  fun c hk hc hstart => h c.current.kind hstart c hk hc rfl

theorem place : Tracks k s start (Parser.place : Parser (Recorded σ) Position) (· = s) :=
  fun _ hk hc _ => ⟨[], .idle rfl hk hc (fun _ _ => rfl) fun _ he => nomatch he⟩

protected theorem notify (event : Event) :
    Tracks k s start (Parser.notify event : Parser (Recorded σ) Unit) (· = s) :=
  fun _ hk hc _ => ⟨[], .idle rfl hk hc (fun _ _ => rfl) fun _ he => nomatch he⟩

/-- An error about anything but the levels. -/
theorem unexpected {expected : Expected} (h : expected ≠ .nesting) :
    Tracks k s start (Parser.unexpected expected : Parser (Recorded σ) α) Q := by
  refine fun c hk hc _ => ⟨[], .idle rfl hk hc (fun _ ha => nomatch ha) ?_⟩
  rintro e he hnesting
  cases he
  exact absurd hnesting h

section Token

variable {κ : TokenKind} (hκ : κ ≠ .endOfInput) (hcount : s.count κ = k) (hstep : s.step κ = s')

include hκ hcount hstep

/-- A token at which the count is what the counter says. -/
theorem advance : Tracks k s (· = κ) (Parser.advance : Parser (Recorded σ) Token) (· = s') := by
  intro c hk hc hkind
  have hne : c.plain.current.kind ≠ .endOfInput := hkind ▸ hκ
  refine ⟨[c.current], ⟨Cursor.consumes_current hne, ?_, hk, hc.advance, fun _ _ => ?_,
    fun _ he => nomatch he⟩⟩
  · show c.advance.record = _
    rw [Cursor.record_advance, Surroundings.counts_cons, hk, hkind, hcount]
    rfl
  · rw [Surroundings.after_cons, hkind]
    exact hstep

theorem expect : Tracks k s start (Parser.expect κ : Parser (Recorded σ) Token) (· = s') := by
  refine .peek fun κ' _ => ?_
  split
  · rename_i h
    subst h
    exact advance hκ hcount hstep
  · exact .unexpected nofun

end Token

/-- An optional token, and then the parser that its presence selects. -/
theorem acceptThen {κ : TokenKind} {f : Bool → Parser (Recorded σ) α} (hκ : κ ≠ .endOfInput)
    (hcount : s.count κ = k) (hfound : Tracks k (s.step κ) anywhere (f true) R)
    (hnone : Tracks k s anywhere (f false) R) :
    Tracks k s start (Parser.accept κ >>= f) R := by
  rw [Parser.accept, bind_bind]
  refine .peek fun κ' _ => ?_
  split
  · rename_i h
    subst h
    rw [bind_bind]
    exact (advance hκ hcount rfl).seq fun _ => hfound
  · exact hnone.narrow fun _ => trivial

/-! ### Tokens that change nothing -/

section Inert

variable {κ : TokenKind} (hκ : Surroundings.inert κ = true) (htotal : s.total = k)

include hκ htotal

theorem advance_inert : Tracks k s (· = κ) (Parser.advance : Parser (Recorded σ) Token) (· = s) :=
  advance (Surroundings.kind_ne_of_inert hκ) ((Surroundings.count_of_inert hκ s).trans htotal)
    (Surroundings.step_of_inert hκ s)

theorem expect_inert : Tracks k s start (Parser.expect κ : Parser (Recorded σ) Token) (· = s) :=
  expect (Surroundings.kind_ne_of_inert hκ) ((Surroundings.count_of_inert hκ s).trans htotal)
    (Surroundings.step_of_inert hκ s)

theorem accept_inert : Tracks k s start (Parser.accept κ : Parser (Recorded σ) Bool) (· = s) := by
  refine .peek fun κ' _ => ?_
  split
  · rename_i h
    subst h
    exact (advance_inert hκ htotal).seq fun _ => .pure _ rfl
  · exact .pure _ rfl

end Inert

/-! ### Loops -/

theorem chainTurns {op? : TokenKind → Option ω} {item : Parser (Recorded σ) α}
    (hop : ∀ κ op, op? κ = some op → Surroundings.inert κ = true) (htotal : s.total = k)
    (hitem : Tracks k s anywhere item (· = s)) :
    ∀ turns, Tracks k s anywhere (Parser.chainTurns op? item turns) (· = s)
  | 0 => .pure _ rfl
  | turns + 1 => by
      refine .peek fun κ _ => ?_
      cases hκ : op? κ with
      | none => exact .pure _ rfl
      | some op =>
          exact (advance_inert (hop κ op hκ) htotal).seq fun _ => hitem.seq fun _ =>
            (chainTurns hop htotal hitem turns).seq fun _ => .pure _ rfl

theorem chain {op? : TokenKind → Option ω} {item : Parser (Recorded σ) α}
    (hop : ∀ κ op, op? κ = some op → Surroundings.inert κ = true) (htotal : s.total = k)
    (hitem : Tracks k s anywhere item (· = s)) :
    Tracks k s start (Parser.chain op? item) (· = s) :=
  fun c hk hc _ => chainTurns hop htotal hitem (c.size + 1) c hk hc trivial

theorem chainOn {κ : TokenKind} {item : Parser (Recorded σ) α}
    (hκ : Surroundings.inert κ = true) (htotal : s.total = k)
    (hitem : Tracks k s anywhere item (· = s)) :
    Tracks k s start (Parser.chainOn κ item) (· = s) := by
  refine (chain (fun κ' _ h => ?_) htotal hitem).seq fun _ => .pure _ rfl
  obtain ⟨rfl, -⟩ := Option.ite_none_right_eq_some.mp h
  exact hκ

/-- Whatever each item keeps up is kept up by all of them. -/
theorem repeatTurns {stop : TokenKind → Bool} {item : Parser (Recorded σ) α}
    (hitem : ∀ s, Q s → Tracks k s anywhere item Q) :
    ∀ turns s, Q s → Tracks k s anywhere (Parser.repeatTurns stop item turns) Q
  | 0, _, hs => .pure _ hs
  | turns + 1, s, hs => by
      refine .peek fun κ _ => ?_
      split
      · exact .pure _ hs
      · exact ((hitem s hs).narrow fun _ => trivial).bind fun _ s' hs' =>
          (repeatTurns hitem turns s' hs').bind fun _ _ hs'' => .pure _ hs''

theorem repeatUntil {stop : TokenKind → Bool} {item : Parser (Recorded σ) α}
    (hitem : ∀ s, Q s → Tracks k s anywhere item Q) (hs : Q s) :
    Tracks k s start (Parser.repeatUntil stop item) Q :=
  fun c hk hc _ => repeatTurns hitem (c.size + 1) s hs c hk hc trivial

/-! ### Nesting -/

/-- A level is opened at a token that opens a construct. -/
theorem nested {p : Parser (Recorded σ) α} (htotal : s.total = k)
    (hopens : ∀ κ, start κ → s.Opens κ) (h : k < maxNesting → Tracks (k + 1) s start p Q) :
    Tracks k s start (recordedNested p) Q := by
  intro c hk hc hstart
  rw [recordedNested]
  rcases Nat.lt_or_ge k maxNesting with hfree | hfull
  · rw [if_neg (by rw [hk]; exact Nat.not_le.mpr hfree), hk]
    obtain ⟨ts, hts⟩ := h hfree (c.reopened (k + 1)) rfl (hc.reopened hfree) hstart
    have hclosed : (p (c.reopened (k + 1))).cursor.opened - 1 = k := by rw [hts.closed]; rfl
    have hcapped := hts.capped.reopened (hclosed ▸ Nat.le_of_lt hfree)
    exact ⟨ts, ⟨hts.consumes, hts.record, hclosed, hcapped, hts.success, hts.missing⟩⟩
  · rw [if_pos (by rw [hk]; exact hfull)]
    have hle : k ≤ maxNesting := hk ▸ Nat.le_trans hc.opened_le hc.peak_le
    exact ⟨[], .idle rfl hk hc nofun fun _ _ _ =>
      ⟨htotal.trans (Nat.le_antisymm hle hfull), hopens _ hstart⟩⟩

end Tracks

end Parser

end WorkflowScript
