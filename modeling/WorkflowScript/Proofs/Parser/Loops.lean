import WorkflowScript.Proofs.Parser.Runs

/-!
# Loops of parsers

The loops count their turns down from a bound that the size of the cursor
gives. Here the bound disappears: as long as the repeated parser never
enlarges a cursor (and, where nothing else is consumed, makes it smaller
with every success), more turns change nothing, and a loop is its own
unrolling (`chain_apply`, `repeatUntil_apply`). Everything else about the
loops follows from these two equations.
-/

namespace WorkflowScript.Parser

variable {σ α β ω : Type}

/-- Two continuations that agree wherever `p` leads to are interchangeable
behind it. -/
theorem bind_congr_at {p : Parser σ α} {f g : α → Parser σ β} {c : Cursor σ}
    (h : ∀ a d, p.Runs c a d → f a d = g a d) : (p >>= f) c = (p >>= g) c := by
  rcases p.runs_or_fails c with ⟨a, d, ev, hp⟩ | ⟨e, d, ev, hp⟩
  · rw [bind_apply_ok hp, bind_apply_ok hp, h a d ⟨ev, hp⟩]
  · rw [bind_apply_error hp, bind_apply_error hp]

theorem bind_congr_left {p q : Parser σ α} {f : α → Parser σ β} {c : Cursor σ}
    (h : p c = q c) : (p >>= f) c = (q >>= f) c := by
  change Parser.bind p f c = Parser.bind q f c
  rw [Parser.bind, Parser.bind, h]

variable [TokenSource σ]

/-- The parser never leads to a larger cursor, whether it succeeds or not. -/
def Steady (p : Parser σ α) : Prop := ∀ c, (p c).cursor.size ≤ c.size

/-- Every success of the parser leads to a smaller cursor. -/
def Advancing (p : Parser σ α) : Prop := ∀ c a d, p.Runs c a d → d.size < c.size

theorem Steady.of_runs {p : Parser σ α} (h : p.Steady) {c d : Cursor σ} {a : α}
    (hr : p.Runs c a d) : d.size ≤ c.size := by
  rw [← (runs_iff.mp hr).2]
  exact h c

theorem size_advance_lt {c : Cursor σ} (h : c.current.kind ≠ .endOfInput) :
    c.advance.size < c.size :=
  c.size_advance_lt (by simpa [Token.isEnd] using h)

/-! ## Operands behind operators -/

section Chain

variable {op? : TokenKind → Option ω} {item : Parser σ α}

/-- One turn of a chain, with `rest` for the turns that follow. -/
def chainTurn (op? : TokenKind → Option ω) (item : Parser σ α)
    (rest : Parser σ (List (ω × α))) : Parser σ (List (ω × α)) := do
  match op? (← peek) with
  | none => pure []
  | some op =>
    let _ ← advance
    let operand ← item
    let rest ← rest
    pure ((op, operand) :: rest)

/-- What follows a turn starts at a smaller cursor. -/
theorem chainTurn_congr (hend : op? .endOfInput = none) (hitem : item.Steady)
    {p q : Parser σ (List (ω × α))} {c : Cursor σ} (h : ∀ d, d.size < c.size → p d = q d) :
    chainTurn op? item p c = chainTurn op? item q c := by
  refine bind_congr_at fun k d hk => ?_
  obtain ⟨rfl, rfl⟩ := runs_peek.mp hk
  cases hop : op? d.current.kind with
  | none => rfl
  | some op =>
      refine bind_congr_at fun t d' ht => ?_
      obtain ⟨-, rfl⟩ := runs_advance.mp ht
      refine bind_congr_at fun x d'' hx => bind_congr_left (h d'' ?_)
      have hlt : d.advance.size < d.size :=
        size_advance_lt fun he => by rw [he, hend] at hop; cases hop
      exact Nat.lt_of_le_of_lt (hitem.of_runs hx) hlt

/-- Turns beyond the size of the cursor are never used. -/
theorem chainTurns_congr (hend : op? .endOfInput = none) (hitem : item.Steady) :
    ∀ {m n : Nat} {c : Cursor σ}, c.size < m → c.size < n →
      chainTurns op? item m c = chainTurns op? item n c
  | _ + 1, _ + 1, _, hm, hn =>
      chainTurn_congr hend hitem fun _ hd =>
        chainTurns_congr hend hitem (by omega) (by omega)

/-- A chain is its own unrolling. -/
theorem chain_apply (hend : op? .endOfInput = none) (hitem : item.Steady) (c : Cursor σ) :
    chain op? item c = chainTurn op? item (chain op? item) c :=
  chainTurn_congr hend hitem fun _ hd =>
    chainTurns_congr hend hitem hd (Nat.lt_succ_self _)

theorem runs_chain_nil (hend : op? .endOfInput = none) (hitem : item.Steady) {c : Cursor σ}
    (h : op? c.current.kind = none) : (chain op? item).Runs c [] c := by
  rw [runs_congr (chain_apply hend hitem c), chainTurn, runs_peek_bind, h]
  exact runs_pure.mpr ⟨rfl, rfl⟩

theorem runs_chain_cons (hend : op? .endOfInput = none) (hitem : item.Steady)
    {c d e : Cursor σ} {op : ω} {x : α} {xs : List (ω × α)}
    (h : op? c.current.kind = some op) (hx : item.Runs c.advance x d)
    (hxs : (chain op? item).Runs d xs e) : (chain op? item).Runs c ((op, x) :: xs) e := by
  rw [runs_congr (chain_apply hend hitem c), chainTurn, runs_peek_bind, h]
  simp only [runs_bind, runs_advance, runs_pure]
  exact ⟨_, _, ⟨rfl, rfl⟩, x, d, hx, xs, e, hxs, rfl, rfl⟩

/-! Items behind tokens of one kind are a chain without its operators. -/

theorem runs_chainOn {k : TokenKind} {c d : Cursor σ} {xs : List α} :
    (chainOn k item).Runs c xs d ↔
      ∃ ys, (chain (fun found => if found = k then some () else none) item).Runs c ys d ∧
        xs = ys.map Prod.snd := by
  rw [chainOn, runs_bind]
  constructor
  · rintro ⟨ys, d', hys, hp⟩
    obtain ⟨rfl, rfl⟩ := runs_pure.mp hp
    exact ⟨ys, hys, rfl⟩
  · rintro ⟨ys, hys, rfl⟩
    exact ⟨ys, d, hys, runs_pure.mpr ⟨rfl, rfl⟩⟩

theorem runs_chainOn_nil {k : TokenKind} (hk : k ≠ .endOfInput) (hitem : item.Steady)
    {c : Cursor σ} (h : c.current.kind ≠ k) : (chainOn k item).Runs c [] c :=
  runs_chainOn.mpr ⟨[], runs_chain_nil (if_neg hk.symm) hitem (if_neg h), rfl⟩

theorem runs_chainOn_cons {k : TokenKind} (hk : k ≠ .endOfInput) (hitem : item.Steady)
    {c d e : Cursor σ} {x : α} {xs : List α} (h : c.current.kind = k)
    (hx : item.Runs c.advance x d) (hxs : (chainOn k item).Runs d xs e) :
    (chainOn k item).Runs c (x :: xs) e := by
  obtain ⟨ys, hys, rfl⟩ := runs_chainOn.mp hxs
  exact runs_chainOn.mpr ⟨((), x) :: ys,
    runs_chain_cons (if_neg hk.symm) hitem (if_pos h) hx hys, rfl⟩

/-! Brackets demand that something is left of the closing one. -/

theorem runs_bracketed_nil {c : Cursor σ} (hlp : c.current.kind = .leftParen)
    (hrp : c.advance.current.kind = .rightParen) :
    (bracketed item).Runs c [] c.advance.advance :=
  runs_expect_bind.mpr ⟨hlp, (runs_accept_bind_pos hrp).mpr (runs_pure.mpr ⟨rfl, rfl⟩)⟩

theorem runs_bracketed_cons {c d e : Cursor σ} {x : α} {xs : List α}
    (hlp : c.current.kind = .leftParen) (hne : c.advance.current.kind ≠ .rightParen)
    (hx : item.Runs c.advance x d) (hxs : (chainOn .comma item).Runs d xs e)
    (hrp : e.current.kind = .rightParen) : (bracketed item).Runs c (x :: xs) e.advance :=
  runs_expect_bind.mpr ⟨hlp, (runs_accept_bind_neg hne).mpr (runs_bind.mpr ⟨x, d, hx,
    runs_bind.mpr ⟨xs, e, hxs, runs_expect_bind.mpr ⟨hrp, runs_pure.mpr ⟨rfl, rfl⟩⟩⟩⟩)⟩

end Chain

/-! ## Items up to a closing token -/

section RepeatUntil

variable {stop : TokenKind → Bool} {item : Parser σ α}

/-- One turn of a loop up to a closing token. -/
def repeatTurn (stop : TokenKind → Bool) (item : Parser σ α) (rest : Parser σ (List α)) :
    Parser σ (List α) := do
  if stop (← peek) then pure []
  else
    let x ← item
    let rest ← rest
    pure (x :: rest)

theorem repeatTurn_congr (hitem : item.Advancing) {p q : Parser σ (List α)} {c : Cursor σ}
    (h : ∀ d, d.size < c.size → p d = q d) :
    repeatTurn stop item p c = repeatTurn stop item q c := by
  refine bind_congr_at fun k d hk => ?_
  obtain ⟨rfl, rfl⟩ := runs_peek.mp hk
  cases hstop : stop d.current.kind with
  | true => rfl
  | false => exact bind_congr_at fun x d' hx => bind_congr_left (h d' (hitem _ _ _ hx))

theorem repeatTurns_congr (hitem : item.Advancing) :
    ∀ {m n : Nat} {c : Cursor σ}, c.size < m → c.size < n →
      repeatTurns stop item m c = repeatTurns stop item n c
  | _ + 1, _ + 1, _, hm, hn =>
      repeatTurn_congr hitem fun _ hd => repeatTurns_congr hitem (by omega) (by omega)

/-- A loop up to a closing token is its own unrolling. -/
theorem repeatUntil_apply (hitem : item.Advancing) (c : Cursor σ) :
    repeatUntil stop item c = repeatTurn stop item (repeatUntil stop item) c :=
  repeatTurn_congr hitem fun _ hd => repeatTurns_congr hitem hd (Nat.lt_succ_self _)

theorem runs_repeatUntil_nil (hitem : item.Advancing) {c : Cursor σ}
    (h : stop c.current.kind = true) : (repeatUntil stop item).Runs c [] c := by
  rw [runs_congr (repeatUntil_apply hitem c), repeatTurn, runs_peek_bind, if_pos h]
  exact runs_pure.mpr ⟨rfl, rfl⟩

theorem runs_repeatUntil_cons (hitem : item.Advancing) {c d e : Cursor σ} {x : α}
    {xs : List α} (h : stop c.current.kind = false) (hx : item.Runs c x d)
    (hxs : (repeatUntil stop item).Runs d xs e) :
    (repeatUntil stop item).Runs c (x :: xs) e := by
  rw [runs_congr (repeatUntil_apply hitem c), repeatTurn, runs_peek_bind,
    if_neg (by rw [h]; exact Bool.false_ne_true)]
  simp only [runs_bind, runs_pure]
  exact ⟨x, d, hx, xs, e, hxs, rfl, rfl⟩

/-- A loop that succeeds has reached its closing token. -/
theorem stop_of_runs_repeatUntil (hitem : item.Advancing) {m : Nat} :
    ∀ {c d : Cursor σ} {xs : List α}, c.size < m → (repeatUntil stop item).Runs c xs d →
      stop d.current.kind = true := by
  induction m with
  | zero => exact fun h => absurd h (Nat.not_lt_zero _)
  | succ m ih =>
      intro c d xs hm h
      have h' := (runs_congr (repeatUntil_apply hitem c)).mp h
      rw [repeatTurn, runs_peek_bind] at h'
      by_cases hstop : stop c.current.kind = true
      · rw [if_pos hstop] at h'
        obtain ⟨-, rfl⟩ := runs_pure.mp h'
        exact hstop
      · rw [if_neg hstop] at h'
        obtain ⟨x, c', hx, h'⟩ := runs_bind.mp h'
        obtain ⟨xs', d', hxs, h'⟩ := runs_bind.mp h'
        obtain ⟨-, rfl⟩ := runs_pure.mp h'
        have hlt := hitem _ _ _ hx
        exact ih (by omega) hxs

omit [TokenSource σ] in
/-- What follows a loop follows its last item. -/
theorem repeatTurn_bind_apply {rest : Parser σ (List α)} (f : List α → Parser σ β)
    (c : Cursor σ) :
    (repeatTurn stop item rest >>= f) c =
      if stop c.current.kind then f [] c
      else (item >>= fun x => rest >>= fun xs => f (x :: xs)) c := by
  rw [repeatTurn, bind_bind, peek_bind_apply]
  split
  · rfl
  · simp only [bind_bind]
    rfl

omit [TokenSource σ] in
/-- A loop whose items give up at the end of the input might as well stop
there, if what follows the loop gives up in the same way. -/
theorem repeatTurns_guard_bind {expected : Expected} :
    ∀ (turns : Nat) {f : List α → Parser σ β} (c : Cursor σ),
      (∀ xs d, d.current.kind = .endOfInput → f xs d = unexpected expected d) →
      (repeatTurns stop (do if (← peek) = .endOfInput then unexpected expected else item)
          turns >>= f) c =
        (repeatTurns (fun k => stop k || k == .endOfInput) item turns >>= f) c
  | 0, _, _, _ => rfl
  | turns + 1, f, c, hf => by
      refine (repeatTurn_bind_apply f c).trans (.trans ?_ (repeatTurn_bind_apply f c).symm)
      by_cases hstop : stop c.current.kind = true
      · simp [hstop]
      by_cases hend : c.current.kind = .endOfInput
      · rw [if_neg hstop, if_pos (by simp [hend]), hf [] c hend]
        exact bind_apply_error (by rw [peek_bind_apply, if_pos hend]; rfl)
      · rw [if_neg hstop, if_neg (by simp [hstop, hend])]
        refine (bind_congr_left ?_).trans (bind_congr_at fun x d _ => ?_)
        · rw [peek_bind_apply, if_neg hend]
        · exact repeatTurns_guard_bind turns d fun xs => hf (x :: xs)

/-- A loop that demands a closing token before the end of the input, and
what follows it, as a loop without that demand. -/
theorem repeatUntil_guard_bind {expected : Expected} {f : List α → Parser σ β}
    (hf : ∀ xs d, d.current.kind = .endOfInput → f xs d = unexpected expected d) :
    repeatUntil stop (do if (← peek) = .endOfInput then unexpected expected else item) >>= f =
      repeatUntil (fun k => stop k || k == .endOfInput) item >>= f := by
  funext c
  exact (bind_congr_left rfl).trans
    ((repeatTurns_guard_bind (c.size + 1) c hf).trans (bind_congr_left rfl))

end RepeatUntil

end WorkflowScript.Parser
