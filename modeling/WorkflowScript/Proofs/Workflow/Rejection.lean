import WorkflowScript.Proofs.Workflow.Acceptance
import WorkflowScript.Proofs.Workflow.Lookahead

/-!
# Where and how the parser rejects

An error comes at the earliest possible token (`reject_earliest`): what lies
in front of the offending token is the beginning of something acceptable,
and with the offending token behind it no longer is. What the error says it
expected would have been a legal continuation, if levels do not count.

The first half is recognition. That no accepted sequence goes on with the
offending token is a matter of lookahead: the parser would have stopped
there, too.
-/

namespace WorkflowScript

open WorkflowScript.Language WorkflowScript.Parser

/-- The kinds of tokens that are named as expected. -/
def Expected.kinds : Expected → List TokenKind
  | .kind k => [k]
  | .oneOf ks => ks
  | .factor => factorStarts
  | .nesting => []

theorem ParseError.offers_of_kind {err : ParseError} {t : Token}
    (h : t.kind ∈ err.expected.kinds) : err.Offers t := by
  rw [ParseError.Offers]
  cases hexp : err.expected with
  | kind k =>
      rw [hexp] at h
      exact List.mem_singleton.mp h
  | oneOf ks =>
      rw [hexp] at h
      exact h
  | factor =>
      rw [hexp] at h
      exact h
  | nesting =>
      rw [hexp] at h
      cases h

namespace Entry

variable {σ : Type} [TokenSource σ]

/-! ## Failures of whole parses -/

theorem fails_toEnd {α : Type} {p : Parser σ α} {c d : Cursor σ} {err : ParseError}
    (h : (toEnd p).Fails c err d) :
    p.Fails c err d ∨ ∃ a, p.Runs c a d ∧ d.current.kind ≠ .endOfInput ∧
      err = ⟨d.current, .kind .endOfInput⟩ := by
  rcases fails_bind.mp h with hp | ⟨a, d', hp, h⟩
  · exact .inl hp
  · rcases fails_bind.mp h with h | ⟨_, _, -, h⟩
    · obtain ⟨hne, rfl, rfl⟩ := fails_expect.mp h
      exact .inr ⟨a, hp, hne, rfl⟩
    · exact absurd h not_fails_pure

/-- Either the start symbol fails, or there is something left behind it. -/
theorem fails_whole {r : Grammar.Rules σ} {e : Entry} {c d : Cursor σ} {err : ParseError}
    (h : (e.whole r).Fails c err d) :
    (e.rule r).Fails c err d ∨ ∃ t, (e.rule r).Runs c t d ∧ d.current.kind ≠ .endOfInput ∧
      err = ⟨d.current, .kind .endOfInput⟩ :=
  match e with
  | workflow => fails_toEnd h
  | condition => by
      rcases fails_bind.mp h with h | ⟨t, d', -, h⟩
      · exact fails_toEnd h
      · rcases fails_bind.mp h with h | ⟨_, _, -, h⟩
        · exact absurd h not_fails_notify
        · exact absurd h not_fails_pure
  | script => .inl h

theorem rule_fails_whole {r : Grammar.Rules σ} {e : Entry} {c d : Cursor σ} {err : ParseError}
    (h : (e.rule r).Fails c err d) : (e.whole r).Fails c err d :=
  match e with
  | workflow => fails_bind.mpr (.inl h)
  | condition => fails_bind.mpr (.inl (fails_bind.mpr (.inl h)))
  | script => h

theorem fails_cases {e : Entry} {c d : Cursor σ} {err : ParseError}
    (h : e.parser.Fails c err d) :
    (e.production maxNesting).Fails c err d ∨
      ∃ t, (e.production maxNesting).Runs c t d ∧ d.current.kind ≠ .endOfInput ∧
        err = ⟨d.current, .kind .endOfInput⟩ := by
  rw [← whole_rulesWithin] at h
  rw [← rule_rulesWithin]
  exact fails_whole h

theorem stop_of_fails {e : Entry} {c d : Cursor σ} {err : ParseError}
    (h : e.parser.Fails c err d) : ((e.production maxNesting : Parser σ e.Tree) c).cursor = d := by
  rcases fails_cases h with h | ⟨t, h, -⟩
  · exact (fails_iff.mp h).2
  · exact (runs_iff.mp h).2

theorem alike (e : Entry) (n : Nat) {τ : Type} [TokenSource τ] :
    Alike (e.production n : Parser σ e.Tree) (e.production n : Parser τ e.Tree) :=
  match e with
  | workflow => Grammar.alike_workflow n
  | condition => Grammar.alike_condition (Grammar.alike_factor n)
  | script => Grammar.alike_script n

/-! ## Early errors -/

/-- The start symbol derives a sequence that begins with these tokens. -/
def Extends (e : Entry) (ts : List Token) : Prop := ∃ us t, e.Derives (ts ++ us) t

/-- `err` is the right error behind the tokens `p`. -/
structure EarlyError (e : Entry) (p : List Token) (err : ParseError) : Prop where
  /-- Something acceptable begins with the tokens. -/
  extensible : ∃ us t, (∀ x ∈ us, x.kind ≠ .endOfInput) ∧ e.parse (p ++ us) = .ok t
  /-- Nothing acceptable goes on with the offending token. -/
  offending : err.token.kind ≠ .endOfInput → ∀ us t, (∀ x ∈ us, x.kind ≠ .endOfInput) →
    e.parse (p ++ err.token :: us) ≠ .ok t
  /-- If the input ends there, the tokens are not acceptable as they are. -/
  unfinished : err.token.kind = .endOfInput → ∀ t, e.parse p ≠ .ok t
  /-- Every kind that is named as expected goes on to a sentence, or ends one. -/
  expected : ∀ k ∈ err.expected.kinds, ∀ x : Token, x.kind = k →
    if k = .endOfInput then ∃ t, e.Derives p t else e.Extends (p ++ [x])
  /-- If only the nesting is wrong, the offending token goes on to a sentence. -/
  nesting : err.expected = .nesting → e.Extends (p ++ [err.token])

instance (e : Entry) : Productive (bounded e.Derives e.nesting) where
  sentence n := by
    cases e with
    | workflow =>
        exact ⟨[.plain .kwWorkflow, .plain .identifier, .plain .kwEnd], ⟨"", [], .start⟩,
          .workflow (Token.plain_kind _) (Token.plain_kind _) .nil (Token.plain_kind _),
          Nat.zero_le n⟩
    | condition => exact Productive.sentence (L := Grammar.ExpressionSymbol.within .condition) n
    | script => exact ⟨[], [], .nil, Nat.zero_le n⟩

theorem extends_of_promises {e : Entry} {ts : List Token}
    (h : (bounded e.Derives e.nesting).Promises ts) : e.Extends ts := by
  obtain ⟨n, us, t, h, -⟩ := h
  exact ⟨us, t, h⟩

/-- A sentence holds no end of the input, so none can be offered within one. -/
theorem Extends.kind_ne {e : Entry} {ts : List Token} {x : Token} (h : e.Extends (ts ++ [x])) :
    x.kind ≠ .endOfInput := by
  obtain ⟨us, t, h⟩ := h
  exact (h.proper x (by simp)).2

/-- What has been consumed begins something acceptable. -/
theorem extensible_of_begins {e : Entry} {ts : List Token}
    (h : (bounded e.Derives e.nesting).Begins maxNesting ts) :
    ∃ us t, (∀ x ∈ us, x.kind ≠ .endOfInput) ∧ e.parse (ts ++ us) = .ok t := by
  obtain ⟨us, t, hderives, hn⟩ := h
  have hne : ∀ x ∈ ts ++ us, x.kind ≠ .endOfInput := fun x hx => (hderives.proper x hx).2
  exact ⟨us, t, fun x hx => hne x (List.mem_append_right _ hx),
    (parse_eq_ok_iff hne).mpr ⟨hderives, hn⟩⟩

/-- On another sequence that begins alike the parser stops at the same place. -/
theorem parse_ne_ok_of_stop {e : Entry} {c d : Cursor σ} {p us : List Token} {x : Token}
    (hc : c.Consumes p d) (hstop : ((e.production maxNesting : Parser σ e.Tree) c).cursor = d)
    (hx : x.kind = d.current.kind) (hus : ∀ y ∈ p ++ x :: us, y.kind ≠ .endOfInput)
    (t : e.Tree) : e.parse (p ++ x :: us) ≠ .ok t := by
  intro hok
  obtain ⟨c', hc', hend⟩ := TokenStream.consumes_all .start hus
  obtain ⟨d', hd', hcur, -⟩ := Cursor.consumes_append.mp hc'
  obtain ⟨d'', hr, hend''⟩ := (runs_iff_reaches_end e).mp (parse_eq_ok.mp hok)
  have halike : Alike (e.production maxNesting : Parser σ e.Tree)
      (e.production maxNesting : Parser TokenStream e.Tree) := e.alike maxNesting
  obtain ⟨ts, hts, hq⟩ := halike c
  rw [hstop] at hts hq
  obtain rfl := hts.tokens_unique hc
  obtain ⟨hcursor, -⟩ := hq _ d' ⟨⟨_, rfl, hd'⟩, by rw [hcur, hx]⟩
  obtain rfl := (runs_iff.mp hr).2.symm.trans hcursor
  rw [hcur] at hend''
  exact hus x (by simp) hend''

/-- What a failure leaves behind it, and what it names. -/
theorem behind_of_fails {e : Entry} {c d : Cursor σ} {err : ParseError}
    (h : e.parser.Fails c err d) :
    ∃ p, c.Consumes p d ∧ err.token = d.current ∧
      (bounded e.Derives e.nesting).Begins maxNesting p ∧
      (∀ k ∈ err.expected.kinds, ∀ x : Token, x.kind = k →
        if k = .endOfInput then ∃ t, e.Derives p t else e.Extends (p ++ [x])) ∧
      (err.expected = .nesting → e.Extends (p ++ [err.token])) := by
  rcases fails_cases h with hf | ⟨t, hr, -, rfl⟩
  · obtain ⟨p, hp, htok, hbeg, hoff⟩ := (e.recognises maxNesting).fails trivial hf
    refine ⟨p, hp, htok, ?_, fun k hk x hx => ?_, fun hnest => ?_⟩
    · rcases hbeg with rfl | hbeg
      · obtain ⟨us, t, ht⟩ := Productive.sentence (L := bounded e.Derives e.nesting) maxNesting
        exact ⟨us, t, ht⟩
      · exact hbeg
    · have hext := extends_of_promises (hoff x (ParseError.offers_of_kind (hx ▸ hk)))
      rw [if_neg (hx ▸ hext.kind_ne)]
      exact hext
    · refine extends_of_promises (hoff _ ?_)
      rw [ParseError.Offers, hnest]
  · obtain ⟨p, hp, hderives, hn⟩ := (e.recognises maxNesting).runs trivial hr
    refine ⟨p, hp, rfl, ⟨[], t, by rwa [List.append_nil], hn⟩, fun k hk x _ => ?_, nofun⟩
    obtain rfl := List.mem_singleton.mp hk
    rw [if_pos rfl]
    exact ⟨t, hderives⟩

/-- The parser rejects a sequence at the earliest token, which is the one it
stops at, and names legal continuations. -/
theorem reject_earliest (e : Entry) (ts : List Token) (h : ∀ x ∈ ts, x.kind ≠ .endOfInput)
    (err : ParseError) (herr : e.parse ts = .error err) :
    ∃ p, (Cursor.ofSource (TokenStream.ofList ts)).Consumes p (e.outcome ts).cursor ∧
      (e.outcome ts).cursor.current = err.token ∧
      (p ++ [err.token] <+: ts ∨ p = ts ∧ err.token.kind = .endOfInput) ∧
      e.EarlyError p err := by
  have hfails : e.parser.Fails (Cursor.ofSource (TokenStream.ofList ts)) err
      (e.outcome ts).cursor := fails_iff.mpr ⟨herr, rfl⟩
  obtain ⟨p, hp, htok, hbeg, hexp, hnest⟩ := behind_of_fails hfails
  obtain ⟨c', hall, hend⟩ := TokenStream.consumes_all .start h
  obtain ⟨vs, rfl, hvs⟩ := hp.prefix_of_atEnd hall hend
  have hpne : ∀ x ∈ p, x.kind ≠ .endOfInput := fun x hx => h x (List.mem_append_left _ hx)
  have hplace : p ++ [err.token] <+: p ++ vs ∨
      p = p ++ vs ∧ err.token.kind = .endOfInput := by
    cases vs with
    | nil =>
        obtain rfl := hvs
        exact .inr ⟨(List.append_nil p).symm, by rw [htok, hend]⟩
    | cons v vs =>
        rw [htok, hvs.1]
        exact .inl ⟨vs, by simp⟩
  refine ⟨p, hp, htok.symm, hplace, ?_⟩
  constructor
  · exact extensible_of_begins hbeg
  · intro hne us t hus
    refine parse_ne_ok_of_stop hp (stop_of_fails hfails) (by rw [htok]) ?_ t
    exact List.forall_mem_append.mpr ⟨hpne, List.forall_mem_cons.mpr ⟨hne, hus⟩⟩
  · intro hkind t hok
    rcases hplace with hpre | ⟨hts, -⟩
    · exact absurd hkind (h _ (hpre.subset (by simp)))
    · rw [← hts, hok] at herr
      cases herr
  · exact hexp
  · exact hnest

/-- A name that is neither called nor assigned to: the error is at what
stands behind the name. -/
theorem reject_bare_name : ∃ p,
    (Cursor.ofSource (TokenStream.ofList [.plain .identifier, .plain .semicolon])).Consumes p
      (Entry.script.outcome [.plain .identifier, .plain .semicolon]).cursor ∧
    (Entry.script.outcome [.plain .identifier, .plain .semicolon]).cursor.current =
      .plain .semicolon ∧
    (p ++ [.plain .semicolon] <+: [.plain .identifier, .plain .semicolon] ∨
      p = [.plain .identifier, .plain .semicolon] ∧ TokenKind.semicolon = .endOfInput) ∧
    Entry.script.EarlyError p ⟨.plain .semicolon, .oneOf [.leftParen, .equals]⟩ :=
  reject_earliest .script _ (by decide) ⟨.plain .semicolon, .oneOf [.leftParen, .equals]⟩ rfl

end Entry

end WorkflowScript
