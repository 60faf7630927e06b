import WorkflowScript.Proofs.Parser.Loops

/-!
# One token of lookahead

Two runs of the same production, perhaps on different sources, are compared:
where the second source holds tokens of the kinds that the first run has
consumed, and a token of the kind at which it stopped behind them, the
second run stops there too and with the same verdict. So neither texts and
positions nor anything behind the lookahead have a say in what a parser does
(`AlikeAt`).

There is one rule for each way of putting parsers together. Values are
related only where a parser branches on them; of the others nothing is asked.
-/

namespace WorkflowScript

/-! ## Tokens of the same kinds -/

abbrev kinds (ts : List Token) : List TokenKind := ts.map Token.kind

section Agreement

variable {σ τ : Type} [TokenSource σ] [TokenSource τ]

/-- Between the cursors lie tokens of the kinds of `ts`, and the second
stands at a token of kind `k`. -/
def Cursor.Agrees (d : Cursor τ) (ts : List Token) (k : TokenKind) (d' : Cursor τ) : Prop :=
  (∃ us, kinds us = kinds ts ∧ d.Consumes us d') ∧ d'.current.kind = k

theorem Cursor.Agrees.nil {d d' : Cursor τ} {k : TokenKind} (h : d.Agrees [] k d') :
    d' = d ∧ d.current.kind = k := by
  obtain ⟨⟨us, hus, hd⟩, hk⟩ := h
  obtain rfl := List.map_eq_nil_iff.mp hus
  obtain rfl := hd
  exact ⟨rfl, hk⟩

theorem Cursor.Agrees.cons {d d' : Cursor τ} {t : Token} {ts : List Token} {k : TokenKind}
    (h : d.Agrees (t :: ts) k d') : d.current.kind = t.kind ∧ d.advance.Agrees ts k d' := by
  obtain ⟨⟨us, hus, hd⟩, hk⟩ := h
  cases us with
  | nil => cases hus
  | cons u us =>
      obtain ⟨hut, hus⟩ := List.cons.inj hus
      obtain ⟨hcur, -, hd⟩ := hd
      exact ⟨by rw [hcur, hut], ⟨us, hus, hd⟩, hk⟩

/-- Agreement with a sequence is agreement with its parts. -/
theorem Cursor.Agrees.append {c c' : Cursor σ} {d d' : Cursor τ} {ts ts' : List Token}
    {k : TokenKind} (h : d.Agrees (ts ++ ts') k d') (hc : c.Consumes ts' c')
    (hk : c'.current.kind = k) :
    ∃ e, d.Agrees ts c.current.kind e ∧ e.Agrees ts' k d' := by
  obtain ⟨⟨us, hus, hd⟩, hk'⟩ := h
  rw [kinds, kinds, List.map_append] at hus
  obtain ⟨us₁, us₂, rfl, hus₁, hus₂⟩ := List.map_eq_append_iff.mp hus
  obtain ⟨e, he₁, he₂⟩ := Cursor.consumes_append.mp hd
  refine ⟨e, ⟨⟨us₁, hus₁, he₁⟩, ?_⟩, ⟨us₂, hus₂, he₂⟩, hk'⟩
  cases ts' with
  | nil =>
      obtain rfl := hc
      obtain rfl := List.map_eq_nil_iff.mp hus₂
      obtain rfl := he₂
      rw [hk', hk]
  | cons t ts' =>
      cases us₂ with
      | nil => cases hus₂
      | cons u us₂ => rw [he₂.1, hc.1, (List.cons.inj hus₂).1]

/-- Both cursors start at tokens of the same kind. -/
theorem Cursor.Agrees.current_kind {c c' : Cursor σ} {d d' : Cursor τ} {ts : List Token}
    (h : d.Agrees ts c'.current.kind d') (hc : c.Consumes ts c') :
    d.current.kind = c.current.kind := by
  cases ts with
  | nil =>
      obtain rfl := hc
      exact h.nil.2
  | cons t ts => rw [h.cons.1, hc.1]

end Agreement

/-! ## Runs that go alike -/

namespace Parser

variable {σ τ α β ω : Type} [TokenSource σ] [TokenSource τ]

/-- Both answers are values that `R` relates, or both are errors that expect
the same. -/
def SameVerdict (R : α → α → Prop) : Except ParseError α → Except ParseError α → Prop
  | .ok a, .ok b => R a b
  | .error e, .error e' => e.expected = e'.expected
  | _, _ => False

/-- What `p` does at `c`, `q` does wherever the consumed tokens and the
lookahead are of the same kinds. -/
def AlikeAt (R : α → α → Prop) (p : Parser σ α) (q : Parser τ α) (c : Cursor σ) : Prop :=
  ∃ ts, c.Consumes ts (p c).cursor ∧
    ∀ d d', d.Agrees ts (p c).cursor.current.kind d' →
      (q d).cursor = d' ∧ SameVerdict R (p c).result (q d).result

/-- Whatever the values are. -/
abbrev anyValues : α → α → Prop := fun _ _ => True

/-- What `p` does, `q` does wherever kinds are the same. -/
def Alike (p : Parser σ α) (q : Parser τ α) : Prop := ∀ c, AlikeAt anyValues p q c

namespace AlikeAt

variable {R : α → α → Prop} {S : β → β → Prop} {c : Cursor σ}

theorem congr {p p' : Parser σ α} {q q' : Parser τ α} (hp : p c = p' c) (hq : q = q')
    (h : AlikeAt R p' q' c) : AlikeAt R p q c := by
  subst hq
  rwa [AlikeAt, hp]

protected theorem pure {a b : α} (h : R a b) :
    AlikeAt R (pure a : Parser σ α) (pure b : Parser τ α) c :=
  ⟨[], .refl _, fun _ _ hd => ⟨hd.nil.1.symm, h⟩⟩

theorem unexpected {expected : Expected} :
    AlikeAt R (Parser.unexpected expected : Parser σ α)
      (Parser.unexpected expected : Parser τ α) c :=
  ⟨[], .refl _, fun _ _ hd => ⟨hd.nil.1.symm, rfl⟩⟩

protected theorem notify {event event' : Event} :
    AlikeAt anyValues (Parser.notify event : Parser σ Unit)
      (Parser.notify event' : Parser τ Unit) c :=
  ⟨[], .refl _, fun _ _ hd => ⟨hd.nil.1.symm, trivial⟩⟩

theorem advance (h : c.current.kind ≠ .endOfInput) :
    AlikeAt anyValues (Parser.advance : Parser σ Token) (Parser.advance : Parser τ Token) c :=
  ⟨[c.current], Cursor.consumes_current h, fun _ _ hd => ⟨hd.cons.2.nil.1.symm, trivial⟩⟩

/-- Both parsers see the same kind of lookahead. -/
theorem peek {f : TokenKind → Parser σ α} {g : TokenKind → Parser τ α}
    (h : AlikeAt R (f c.current.kind) (g c.current.kind) c) :
    AlikeAt R (Parser.peek >>= f) (Parser.peek >>= g) c := by
  obtain ⟨ts, hts, hg⟩ := h
  refine ⟨ts, hts, fun d d' hd => ?_⟩
  rw [peek_bind_apply, peek_bind_apply, hd.current_kind hts]
  exact hg d d' hd

/-- One behind the other. The relation of the values in between is one that
every value has to itself. -/
protected theorem bind {p : Parser σ α} {q : Parser τ α} {f : α → Parser σ β}
    {g : α → Parser τ β} (hp : AlikeAt R p q c) (hR : ∀ a, R a a)
    (hf : ∀ a b c', p.Runs c a c' → R a b → AlikeAt S (f a) (g b) c') :
    AlikeAt S (p >>= f) (q >>= g) c := by
  obtain ⟨ts, hts, hq⟩ := hp
  rcases hpc : p c with ⟨e | a, events, c'⟩
  · rw [AlikeAt, bind_apply_error hpc]
    rw [hpc] at hts hq
    refine ⟨ts, hts, fun d d' hd => ?_⟩
    obtain ⟨hcur, hv⟩ := hq d d' hd
    rcases hqd : q d with ⟨e' | b, events', d''⟩
    · rw [hqd] at hcur hv
      rw [bind_apply_error hqd]
      exact ⟨hcur, hv⟩
    · rw [hqd] at hv
      exact hv.elim
  · rw [AlikeAt, bind_apply_ok hpc]
    rw [hpc] at hts hq
    obtain ⟨ts', hts', -⟩ := hf a a c' ⟨events, hpc⟩ (hR a)
    refine ⟨ts ++ ts', hts.append hts', fun d d' hd => ?_⟩
    obtain ⟨e, he, hed'⟩ := hd.append hts' rfl
    obtain ⟨hcur, hv⟩ := hq d e he
    rcases hqd : q d with ⟨e' | b, events', d''⟩
    · rw [hqd] at hv
      exact hv.elim
    · rw [hqd] at hcur hv
      obtain rfl : d'' = e := hcur
      rw [bind_apply_ok hqd]
      obtain ⟨us, hus, hg⟩ := hf a b c' ⟨events, hpc⟩ hv
      obtain rfl := hts'.tokens_unique hus
      exact hg _ d' hed'

theorem expect {k : TokenKind} (hk : k ≠ .endOfInput) :
    AlikeAt anyValues (Parser.expect k : Parser σ Token) (Parser.expect k : Parser τ Token) c := by
  refine .peek ?_
  split
  · rename_i h
    exact .advance (by rwa [h])
  · exact .unexpected

theorem accept {k : TokenKind} (hk : k ≠ .endOfInput) :
    AlikeAt Eq (Parser.accept k : Parser σ Bool) (Parser.accept k : Parser τ Bool) c := by
  refine .peek ?_
  split
  · rename_i h
    exact .bind (.advance (by rwa [h])) (fun _ => trivial) fun _ _ _ _ _ => .pure rfl
  · exact .pure rfl

end AlikeAt

/-! ## Parsers that go alike everywhere -/

namespace Alike

protected theorem pure (a b : α) : Alike (pure a : Parser σ α) (pure b : Parser τ α) :=
  fun _ => .pure trivial

protected theorem bind {p : Parser σ α} {q : Parser τ α} {f : α → Parser σ β}
    {g : α → Parser τ β} (hp : Alike p q) (hf : ∀ a b, Alike (f a) (g b)) :
    Alike (p >>= f) (q >>= g) :=
  fun c => (hp c).bind (fun _ => trivial) fun a b _ _ _ => hf a b _

protected theorem map {f g : α → β} {p : Parser σ α} {q : Parser τ α} (hp : Alike p q) :
    Alike (f <$> p) (g <$> q) :=
  hp.bind fun a b => .pure (f a) (g b)

theorem expect {k : TokenKind} (hk : k ≠ .endOfInput) :
    Alike (Parser.expect k : Parser σ Token) (Parser.expect k : Parser τ Token) :=
  fun _ => .expect hk

/-- Both parsers find the optional token, or both find none. -/
theorem acceptThen {k : TokenKind} (hk : k ≠ .endOfInput) {f : Bool → Parser σ α}
    {g : Bool → Parser τ α} (hf : ∀ b, Alike (f b) (g b)) :
    Alike (accept k >>= f) (accept k >>= g) :=
  fun _ => .bind (.accept hk) (fun _ => rfl) fun _ _ _ _ hab => hab ▸ hf _ _

/-! ### Loops

Both loops are unrolled once; the induction is on the size of the first
run's cursor. -/

theorem chain {op? : TokenKind → Option ω} (hend : op? .endOfInput = none) {p : Parser σ α}
    {q : Parser τ α} (hp : p.Steady) (hq : q.Steady) (hpq : Alike p q) :
    Alike (Parser.chain op? p) (Parser.chain op? q) := by
  intro c
  induction hn : c.size using Nat.strongRecOn generalizing c with
  | ind n ih =>
      subst hn
      refine .congr (chain_apply hend hp c) (funext (chain_apply hend hq)) (.peek ?_)
      cases hop : op? c.current.kind with
      | none => exact .pure trivial
      | some op =>
          have hne : c.current.kind ≠ .endOfInput := fun he => by rw [he, hend] at hop; cases hop
          refine .bind (.advance hne) (fun _ => trivial) fun _ _ c₁ hc₁ _ => ?_
          obtain ⟨-, rfl⟩ := runs_advance.mp hc₁
          refine .bind (hpq _) (fun _ => trivial) fun x y c₂ hc₂ _ => ?_
          have hlt := Nat.lt_of_le_of_lt (hp.of_runs hc₂) (size_advance_lt hne)
          exact .bind (ih _ hlt c₂ rfl) (fun _ => trivial) fun _ _ _ _ _ => .pure trivial

theorem chainOn {k : TokenKind} (hk : k ≠ .endOfInput) {p : Parser σ α} {q : Parser τ α}
    (hp : p.Steady) (hq : q.Steady) (hpq : Alike p q) :
    Alike (Parser.chainOn k p) (Parser.chainOn k q) :=
  .bind (.chain (if_neg hk.symm) hp hq hpq) fun _ _ => .pure _ _

theorem bracketed {p : Parser σ α} {q : Parser τ α} (hp : p.Steady) (hq : q.Steady)
    (hpq : Alike p q) : Alike (Parser.bracketed p) (Parser.bracketed q) := by
  refine .bind (.expect (by decide)) fun _ _ => .acceptThen (by decide) fun b => ?_
  cases b with
  | true => exact .pure _ _
  | false =>
      exact .bind hpq fun _ _ => .bind (.chainOn (by decide) hp hq hpq) fun _ _ =>
        .bind (.expect (by decide)) fun _ _ => .pure _ _

theorem repeatUntil {stop : TokenKind → Bool} {p : Parser σ α} {q : Parser τ α}
    (hp : p.Advancing) (hq : q.Advancing) (hpq : Alike p q) :
    Alike (Parser.repeatUntil stop p) (Parser.repeatUntil stop q) := by
  intro c
  induction hn : c.size using Nat.strongRecOn generalizing c with
  | ind n ih =>
      subst hn
      refine .congr (repeatUntil_apply hp c) (funext (repeatUntil_apply hq)) (.peek ?_)
      split
      · exact .pure trivial
      · refine .bind (hpq c) (fun _ => trivial) fun x y c' hc' _ => ?_
        exact .bind (ih _ (hp _ _ _ hc') c' rfl) (fun _ => trivial) fun _ _ _ _ _ => .pure trivial

end Alike

end Parser

end WorkflowScript
