import WorkflowScript.Proofs.Parser.Language
import WorkflowScript.Proofs.Parser.Loops

/-!
# What a parser recognises

`Recognises start p L n` ties a parser to a language: wherever the lookahead
is of a kind in `start`, a success of `p` has consumed a sentence of `L`, and
a failure has consumed the beginning of one and names only tokens with which
some sentence goes on. There is one rule for each primitive and each way of
putting parsers together, so that a production needs no more than to have
its composite language compared with the grammar (`Recognises.mono`).

Two things are kept apart on a failure. What has been consumed can be
completed within the levels that are free here; what the error offers may
need more levels than that.
-/

namespace WorkflowScript

/-! ## What an error offers -/

/-- The tokens a factor may start with. -/
def factorStarts : List TokenKind :=
  [.identifier, .integer, .string, .kwTrue, .kwFalse, .leftParen]

/-- The error names the token as one that could have gone on: it is of a
kind that was expected, or it is the one that would have been right with
another level free. -/
def ParseError.Offers (e : ParseError) (t : Token) : Prop :=
  match e.expected with
  | .kind k => t.kind = k
  | .oneOf ks => t.kind ∈ ks
  | .factor => t.kind ∈ factorStarts
  | .nesting => t = e.token

/-! ## Recognising -/

namespace Parser

open WorkflowScript.Language

variable {σ α β ω : Type} [TokenSource σ]

/-- At any lookahead. -/
abbrev anywhere : TokenKind → Prop := fun _ => True

/-- At every lookahead of a kind in `start`, the parser recognises `L` with
`n` levels free. A failure that has consumed nothing says nothing about the
levels: whether anything may begin there is for the context to know. -/
structure Recognises (start : TokenKind → Prop) (p : Parser σ α) (L : Language α) (n : Nat) :
    Prop where
  runs : ∀ {c a d}, start c.current.kind → p.Runs c a d → ∃ ts, c.Consumes ts d ∧ L n ts a
  fails : ∀ {c e d}, start c.current.kind → p.Fails c e d →
    ∃ ts, c.Consumes ts d ∧ e.token = d.current ∧ (ts = [] ∨ L.Begins n ts) ∧
      ∀ t, e.Offers t → L.Promises (ts ++ [t])

namespace Recognises

variable {start : TokenKind → Prop} {L : Language α} {n : Nat}

theorem mono {p : Parser σ α} {M : Language α} (h : Recognises start p L n)
    (hLM : ∀ {n ts a}, L n ts a → M n ts a) : Recognises start p M n where
  runs hs hr := by
    obtain ⟨ts, hts, hL⟩ := h.runs hs hr
    exact ⟨ts, hts, hLM hL⟩
  fails hs hf := by
    obtain ⟨ts, hts, htok, hbeg, hoff⟩ := h.fails hs hf
    exact ⟨ts, hts, htok, hbeg.imp_right fun hb => hb.mono hLM, fun t ht => by
      obtain ⟨m, hm⟩ := hoff t ht
      exact ⟨m, hm.mono hLM⟩⟩

/-- A parser for one level further in. -/
theorem nested {p : Parser σ α} (h : Recognises start p L n) :
    Recognises start p L.nested (n + 1) where
  runs hs hr := by
    obtain ⟨ts, hts, hL⟩ := h.runs hs hr
    exact ⟨ts, hts, n, rfl, hL⟩
  fails hs hf := by
    obtain ⟨ts, hts, htok, hbeg, hoff⟩ := h.fails hs hf
    refine ⟨ts, hts, htok, hbeg.imp_right ?_, fun t ht => ?_⟩
    · rintro ⟨us, a, hL⟩
      exact ⟨us, a, n, rfl, hL⟩
    · obtain ⟨m, us, a, hL⟩ := hoff t ht
      exact ⟨m + 1, us, a, m, rfl, hL⟩

theorem narrow {start' : TokenKind → Prop} {p : Parser σ α} (h : Recognises start p L n)
    (hs : ∀ {k}, start' k → start k) : Recognises start' p L n where
  runs hs' hr := h.runs (hs hs') hr
  fails hs' hf := h.fails (hs hs') hf

/-- Every stop of the parser lies behind the consumed tokens. -/
theorem steady {p : Parser σ α} (h : Recognises anywhere p L n) (c : Cursor σ) :
    (p c).cursor.size ≤ c.size := by
  rcases p.runs_or_fails c with ⟨a, d, hr⟩ | ⟨e, d, hf⟩
  · obtain ⟨ts, hts, -⟩ := h.runs trivial hr
    rw [(runs_iff.mp hr).2]
    have := hts.size_le
    omega
  · obtain ⟨ts, hts, -⟩ := h.fails trivial hf
    rw [(fails_iff.mp hf).2]
    have := hts.size_le
    omega

/-! ### Sequencing -/

protected theorem pure (a : α) : Recognises start (pure a : Parser σ α) (empty a) n where
  runs {c b d} _ hr := by
    obtain ⟨rfl, rfl⟩ := runs_pure.mp hr
    exact ⟨[], .refl _, rfl, rfl⟩
  fails _ hf := absurd hf not_fails_pure

protected theorem bind {p : Parser σ α} {f : α → Parser σ β} {M : α → Language β}
    [Growing L] [∀ a, Growing (M a)] [∀ a, Productive (M a)] (hp : Recognises start p L n)
    (hf : ∀ a, Recognises anywhere (f a) (M a) n) :
    Recognises start (p >>= f) (L.andThen M) n where
  runs hs hr := by
    obtain ⟨a, d, hpr, hfr⟩ := runs_bind.mp hr
    obtain ⟨us, hus, hL⟩ := hp.runs hs hpr
    obtain ⟨vs, hvs, hM⟩ := (hf a).runs trivial hfr
    exact ⟨us ++ vs, hus.append hvs, us, a, vs, rfl, hL, hM⟩
  fails hs hfail := by
    rcases fails_bind.mp hfail with hpf | ⟨a, d, hpr, hff⟩
    · obtain ⟨ts, hts, htok, hbeg, hoff⟩ := hp.fails hs hpf
      exact ⟨ts, hts, htok, hbeg.imp_right Begins.andThen, fun t ht => (hoff t ht).andThen⟩
    · obtain ⟨us, hus, hL⟩ := hp.runs hs hpr
      obtain ⟨vs, hvs, htok, hbeg, hoff⟩ := (hf a).fails trivial hff
      refine ⟨us ++ vs, hus.append hvs, htok, .inr ?_, fun t ht => ?_⟩
      · rcases hbeg with rfl | hbeg
        · obtain ⟨ws, b, hM⟩ := Productive.sentence (L := M a) n
          exact .behind hL ⟨ws, b, hM⟩
        · exact .behind hL hbeg
      · rw [List.append_assoc]
        exact .behind hL (hoff t ht)

protected theorem map {p : Parser σ α} {f : α → β} [Growing L] (hp : Recognises start p L n) :
    Recognises start (f <$> p) (L.andThen fun a => empty (f a)) n :=
  hp.bind fun a => .pure (f a)

/-- Every cursor may have a recogniser of its own. -/
theorem here {p : Parser σ α} (h : ∀ c, start c.current.kind →
    ∃ q : Parser σ α, p c = q c ∧ Recognises (· = c.current.kind) q L n) :
    Recognises start p L n where
  runs {c a d} hs hr := by
    obtain ⟨q, hpq, hq⟩ := h c hs
    exact hq.runs rfl ((runs_congr hpq).mp hr)
  fails {c e d} hs hf := by
    obtain ⟨q, hpq, hq⟩ := h c hs
    exact hq.fails rfl ((fails_congr hpq).mp hf)

/-- The kind of the lookahead selects the parser. -/
theorem peek {f : TokenKind → Parser σ α}
    (h : ∀ k, start k → Recognises (· = k) (f k) L n) :
    Recognises start (Parser.peek >>= f) L n :=
  .here fun c hs => ⟨f c.current.kind, rfl, h _ hs⟩

/-! ### Primitives -/

theorem advance {k : TokenKind} (hk : k ≠ .endOfInput) :
    Recognises (· = k) (Parser.advance : Parser σ Token) (token k) n where
  runs {c t d} hs hr := by
    obtain ⟨rfl, rfl⟩ := runs_advance.mp hr
    exact ⟨[c.current], Cursor.consumes_current (by rwa [hs]), rfl, hs⟩
  fails _ hf := absurd hf not_fails_advance

theorem unexpected {expected : Expected}
    (h : ∀ {c : Cursor σ}, start c.current.kind →
      ∀ t, ParseError.Offers ⟨c.current, expected⟩ t → L.Promises [t]) :
    Recognises start (Parser.unexpected expected : Parser σ α) L n where
  runs _ hr := absurd hr not_runs_unexpected
  fails {c e d} hs hf := by
    obtain ⟨rfl, rfl⟩ := fails_unexpected.mp hf
    exact ⟨[], .refl _, rfl, .inl rfl, h hs⟩

theorem expect {k : TokenKind} (hk : k ≠ .endOfInput) :
    Recognises start (Parser.expect k : Parser σ Token) (token k) n where
  runs {c t d} _ hr := by
    obtain ⟨hkind, rfl, rfl⟩ := runs_expect.mp hr
    exact ⟨[c.current], Cursor.consumes_current (by rwa [hkind]), rfl, hkind⟩
  fails {c e d} _ hf := by
    obtain ⟨-, rfl, rfl⟩ := fails_expect.mp hf
    exact ⟨[], .refl _, rfl, .inl rfl, fun t ht => ⟨0, [], t, rfl, ht⟩⟩

protected theorem notify (event : Event) :
    Recognises start (Parser.notify event : Parser σ Unit) (empty ()) n where
  runs {c u d} _ hr := by
    obtain rfl := runs_notify.mp hr
    exact ⟨[], .refl _, rfl, rfl⟩
  fails _ hf := absurd hf not_fails_notify

/-- An optional token, and then the parser that its presence selects. -/
theorem acceptThen {k : TokenKind} (hk : k ≠ .endOfInput) {f : Bool → Parser σ α}
    {Y N : Language α} [Productive Y] (hY : Recognises anywhere (f true) Y n)
    (hN : Recognises anywhere (f false) N n) :
    Recognises start (accept k >>= f) (optional k Y N) n where
  runs hs hr := by
    obtain ⟨b, d, ha, hfr⟩ := runs_bind.mp hr
    rcases runs_accept.mp ha with ⟨hkind, rfl, rfl⟩ | ⟨-, rfl, rfl⟩
    · obtain ⟨ts, hts, hL⟩ := hY.runs trivial hfr
      exact ⟨_, Cursor.consumes_cons.mpr ⟨rfl, by rwa [hkind], hts⟩, .inl ⟨_, ts, rfl, hkind, hL⟩⟩
    · obtain ⟨ts, hts, hL⟩ := hN.runs trivial hfr
      exact ⟨ts, hts, .inr hL⟩
  fails hs hf := by
    rcases fails_bind.mp hf with ha | ⟨b, d, ha, hff⟩
    · exact absurd ha not_fails_accept
    · rcases runs_accept.mp ha with ⟨hkind, rfl, rfl⟩ | ⟨-, rfl, rfl⟩
      · obtain ⟨ts, hts, htok, hbeg, hoff⟩ := hY.fails trivial hff
        refine ⟨_, Cursor.consumes_cons.mpr ⟨rfl, by rwa [hkind], hts⟩, htok, .inr ?_,
          fun t ht => ?_⟩
        · rcases hbeg with rfl | ⟨us, a, hL⟩
          · obtain ⟨us, a, hL⟩ := Productive.sentence (L := Y) n
            exact ⟨us, a, .inl ⟨_, us, rfl, hkind, hL⟩⟩
          · exact ⟨us, a, .inl ⟨_, _, rfl, hkind, hL⟩⟩
        · obtain ⟨m, us, a, hL⟩ := hoff t ht
          exact ⟨m, us, a, .inl ⟨_, _, rfl, hkind, hL⟩⟩
      · obtain ⟨ts, hts, htok, hbeg, hoff⟩ := hN.fails trivial hff
        exact ⟨ts, hts, htok, hbeg.imp_right fun hb => hb.mono .inr, fun t ht => by
          obtain ⟨m, hm⟩ := hoff t ht
          exact ⟨m, hm.mono .inr⟩⟩

/-! ### Loops -/

/-- A loop over operands recognises chains, however many turns it may take. -/
theorem chainTurns {op? : TokenKind → Option ω} (hend : op? .endOfInput = none)
    {item : Parser σ α} [Growing L] [Productive L] (hitem : Recognises anywhere item L n) :
    ∀ turns, Recognises anywhere (Parser.chainTurns op? item turns) (Chained op? L) n
  | 0 => (Recognises.pure []).mono fun ⟨hts, hxs⟩ => hts ▸ hxs ▸ .nil
  | turns + 1 => .peek fun k _ => by
      cases hop : op? k with
      | none => exact (Recognises.pure []).mono fun ⟨hts, hxs⟩ => hts ▸ hxs ▸ .nil
      | some op =>
          have hk : k ≠ .endOfInput := fun he => by rw [he, hend] at hop; cases hop
          refine ((Recognises.advance hk).bind fun t => hitem.bind fun x =>
            (chainTurns hend hitem turns).bind fun xs => .pure ((op, x) :: xs)).mono ?_
          rintro n _ _ ⟨_, t, _, rfl, ⟨rfl, ht⟩, us, x, _, rfl, hx, vs, xs, _, rfl, hxs, rfl, rfl⟩
          simpa using Chained.cons (ht ▸ hop) hx hxs

theorem chain {op? : TokenKind → Option ω} (hend : op? .endOfInput = none)
    {item : Parser σ α} [Growing L] [Productive L] (hitem : Recognises anywhere item L n) :
    Recognises start (Parser.chain op? item) (Chained op? L) n where
  runs _ hr := (chainTurns hend hitem _).runs trivial hr
  fails _ hf := (chainTurns hend hitem _).fails trivial hf

/-- A loop up to a closing token recognises repetitions, however many turns
it may take. -/
theorem repeatTurns {stop : TokenKind → Bool} {item : Parser σ α} [Growing L] [Productive L]
    (hitem : Recognises anywhere item L n) :
    ∀ turns, Recognises anywhere (Parser.repeatTurns stop item turns) (Repeated L) n
  | 0 => (Recognises.pure []).mono fun ⟨hts, hxs⟩ => hts ▸ hxs ▸ .nil
  | turns + 1 => .peek fun k _ => by
      cases hstop : stop k with
      | true => exact (Recognises.pure []).mono fun ⟨hts, hxs⟩ => hts ▸ hxs ▸ .nil
      | false =>
          refine ((hitem.narrow fun _ => trivial).bind fun x =>
            (repeatTurns hitem turns).bind fun xs => .pure (x :: xs)).mono ?_
          rintro n _ _ ⟨us, x, _, rfl, hx, vs, xs, _, rfl, hxs, rfl, rfl⟩
          simpa using Repeated.cons hx hxs

theorem repeatUntil {stop : TokenKind → Bool} {item : Parser σ α} [Growing L] [Productive L]
    (hitem : Recognises anywhere item L n) :
    Recognises start (Parser.repeatUntil stop item) (Repeated L) n where
  runs _ hr := (repeatTurns hitem _).runs trivial hr
  fails _ hf := (repeatTurns hitem _).fails trivial hf

/-- A loop up to a closing token, that token, and what follows it. Where no
item can start, the error may offer the closing token beside the items. -/
theorem repeatTurnsClosed {k : TokenKind} (hk : k ≠ .endOfInput) {item : Parser σ α}
    [Growing L] [Productive L] {starts : TokenKind → Prop} {expected : Expected}
    (hitem : Recognises starts item L n)
    (hother : ∀ {c}, ¬starts c.current.kind → item c = Parser.unexpected expected c)
    (hoffers : ∀ {u t}, ParseError.Offers ⟨u, expected⟩ t →
      L.Promises [t] ∨ t.kind = k) :
    ∀ (turns : Nat) {f : List α → Parser σ β} {M : List α → Language β}
      [∀ xs, Growing (M xs)] [∀ xs, Productive (M xs)],
      (∀ xs, Recognises anywhere (f xs) (M xs) n) →
      Recognises anywhere
        (Parser.repeatTurns (· = k) item turns >>= fun xs => Parser.expect k >>= fun _ => f xs)
        (closed k L M) n
  | 0, f, M, _, _, hf =>
      Recognises.mono ((expect hk).bind fun _ => hf []) fun h => ⟨[], [], _, rfl, .nil, h⟩
  | turns + 1, f, M, _, _, hf => by
      refine .here fun c _ => ?_
      by_cases hstop : c.current.kind = k
      · refine ⟨_, (repeatTurn_bind_apply _ c).trans (if_pos (by simpa using hstop)), ?_⟩
        exact Recognises.mono ((expect hk).bind fun _ => hf [])
          fun h => ⟨[], [], _, rfl, .nil, h⟩
      refine ⟨_, (repeatTurn_bind_apply _ c).trans (if_neg (by simpa using hstop)), ?_⟩
      by_cases hs : starts c.current.kind
      · refine Recognises.mono ((hitem.narrow fun {_} hk' => by rwa [hk']).bind fun x =>
          repeatTurnsClosed hk hitem hother hoffers turns fun xs => hf (x :: xs)) ?_
        rintro n _ b ⟨us, x, _, rfl, hx, vs, xs, ws, rfl, hxs, hb⟩
        exact ⟨us ++ vs, x :: xs, ws, (List.append_assoc ..).symm, .cons hx hxs, hb⟩
      · refine .here fun c' hc' => ⟨Parser.unexpected expected, ?_, .unexpected fun _ t ht => ?_⟩
        · rw [bind_apply_error (hother (hc' ▸ hs))]
          rfl
        · rcases hoffers ht with ⟨m, us, x, hx⟩ | ht
          · obtain ⟨vs, b, hb⟩ := Productive.sentence
              (L := (token k).andThen fun _ => M [x]) m
            exact ⟨m, us ++ vs, b, t :: us, [x], vs, rfl,
              by simpa using Repeated.cons hx (.nil (L := L)), hb⟩
          · obtain ⟨vs, b, hb⟩ := Productive.sentence (L := M []) 0
            exact ⟨0, vs, b, [], [], t :: vs, rfl, .nil, [t], t, vs, rfl, ⟨rfl, ht⟩, hb⟩

theorem repeatUntilClosed {k : TokenKind} (hk : k ≠ .endOfInput) {item : Parser σ α}
    [Growing L] [Productive L] {starts : TokenKind → Prop} {expected : Expected}
    (hitem : Recognises starts item L n)
    (hother : ∀ {c}, ¬starts c.current.kind → item c = Parser.unexpected expected c)
    (hoffers : ∀ {u t}, ParseError.Offers ⟨u, expected⟩ t →
      L.Promises [t] ∨ t.kind = k)
    {f : List α → Parser σ β} {M : List α → Language β} [∀ xs, Growing (M xs)]
    [∀ xs, Productive (M xs)] (hf : ∀ xs, Recognises anywhere (f xs) (M xs) n) :
    Recognises start
      (Parser.repeatUntil (· = k) item >>= fun xs => Parser.expect k >>= fun _ => f xs)
      (closed k L M) n :=
  .here fun c _ => ⟨Parser.repeatTurns (· = k) item (c.size + 1) >>= fun xs =>
      Parser.expect k >>= fun _ => f xs, bind_congr_left rfl,
    .narrow (repeatTurnsClosed hk hitem hother hoffers (c.size + 1) hf) fun _ => trivial⟩

theorem chainOn {k : TokenKind} (hk : k ≠ .endOfInput) {item : Parser σ α} [Growing L]
    [Productive L] (hitem : Recognises anywhere item L n) :
    Recognises start (Parser.chainOn k item) (Listed k L) n := by
  refine ((chain (if_neg hk.symm) hitem).bind fun xs => .pure (xs.map Prod.snd)).mono ?_
  rintro n _ _ ⟨us, xs, _, rfl, hxs, rfl, rfl⟩
  rw [List.append_nil]
  induction hxs with
  | nil => exact .nil
  | cons hop hx _ ih => exact .cons (Option.ite_none_right_eq_some.mp hop).1 hx ih

theorem bracketed {item : Parser σ α} [Growing L] [Productive L]
    (hitem : Recognises anywhere item L n) :
    Recognises start (Parser.bracketed item) (Bracketed L) n := by
  refine ((expect (by decide)).bind fun lp =>
    acceptThen (by decide) (.pure []) (hitem.bind fun x =>
      (chainOn (by decide) hitem).bind fun xs =>
        (expect (by decide)).bind fun rp => .pure (x :: xs))).mono ?_
  rintro n _ _ ⟨_, lp, _, rfl, ⟨rfl, hlp⟩, ⟨rp, _, rfl, hrp, rfl, rfl⟩ | hsome⟩
  · exact .none hlp hrp
  · obtain ⟨us, x, _, rfl, hx, vs, xs, _, rfl, hxs, _, rp, _, rfl, ⟨rfl, hrp⟩, rfl, rfl⟩ := hsome
    simpa using Bracketed.some hlp hx hxs hrp

end Recognises

end Parser

end WorkflowScript
