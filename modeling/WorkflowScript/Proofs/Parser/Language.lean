import WorkflowScript.Token.Basic

/-!
# Languages of token sequences

A `Language` says which values a token sequence stands for, for each number
of levels of nesting that are free. The operations here are the ways in
which parsers are put together, as operations on languages.

Two properties are inferred as instances. A language is `Growing` if what
can be said with few levels can be said with more, and `Productive` if it
has a sentence at every level, so that a beginning can always be completed.
-/

namespace WorkflowScript

/-- Some token of a kind, where text and place do not matter. -/
def Token.plain (k : TokenKind) : Token := ⟨k, "", .start⟩

@[simp] theorem Token.plain_kind (k : TokenKind) : (Token.plain k).kind = k := rfl

/-- The values that token sequences stand for, by the number of levels. -/
abbrev Language (α : Type) := Nat → List Token → α → Prop

namespace Language

variable {α β : Type}

/-! ## Operations -/

/-- Nothing consumed. -/
def empty (a : α) : Language α := fun _ ts b => ts = [] ∧ b = a

/-- One token of a kind. -/
def token (k : TokenKind) : Language Token := fun _ ts t => ts = [t] ∧ t.kind = k

/-- A sentence of `L`, and behind it one of the language that its value
selects. -/
def andThen (L : Language α) (M : α → Language β) : Language β := fun n ts b =>
  ∃ us a vs, ts = us ++ vs ∧ L n us a ∧ M a n vs b

/-- The sentences of a grammar whose values need no more than the free
levels. -/
def bounded (derives : List Token → α → Prop) (nesting : α → Nat) : Language α :=
  fun n ts a => derives ts a ∧ nesting a ≤ n

/-- A token of a kind and a sentence of `Y`, or a sentence of `N`. -/
def optional (k : TokenKind) (Y N : Language α) : Language α := fun n ts a =>
  (∃ t us, ts = t :: us ∧ t.kind = k ∧ Y n us a) ∨ N n ts a

/-- The sentences of `L` one level further in. -/
def nested (L : Language α) : Language α := fun n ts a => ∃ m, n = m + 1 ∧ L m ts a

/-- Operands behind operators. -/
inductive Chained {ω : Type} (op? : TokenKind → Option ω) (L : Language α) (n : Nat) :
    List Token → List (ω × α) → Prop
  | nil : Chained op? L n [] []
  | cons {t ts us op x xs} :
      op? t.kind = some op → L n ts x → Chained op? L n us xs →
      Chained op? L n (t :: ts ++ us) ((op, x) :: xs)

/-- Sentences of `L`, each behind a token of one kind. -/
inductive Listed (k : TokenKind) (L : Language α) (n : Nat) : List Token → List α → Prop
  | nil : Listed k L n [] []
  | cons {t ts us x xs} :
      t.kind = k → L n ts x → Listed k L n us xs → Listed k L n (t :: ts ++ us) (x :: xs)

/-- Sentences of `L` in round brackets with commas between them. -/
inductive Bracketed (L : Language α) (n : Nat) : List Token → List α → Prop
  | none {lp rp} : lp.kind = .leftParen → rp.kind = .rightParen → Bracketed L n [lp, rp] []
  | some {lp ts us rp x xs} :
      lp.kind = .leftParen → L n ts x → Listed .comma L n us xs → rp.kind = .rightParen →
      Bracketed L n (lp :: ts ++ us ++ [rp]) (x :: xs)

/-- Sentences one behind the other. -/
inductive Repeated (L : Language α) (n : Nat) : List Token → List α → Prop
  | nil : Repeated L n [] []
  | cons {ts us x xs} : L n ts x → Repeated L n us xs → Repeated L n (ts ++ us) (x :: xs)

/-- Sentences of `L` one behind the other, a token of a kind that closes
them, and what follows it. -/
abbrev closed (k : TokenKind) (L : Language α) (M : List α → Language β) : Language β :=
  andThen (Repeated L) fun xs => andThen (token k) fun _ => M xs

/-! ## Growing and productive languages -/

class Growing (L : Language α) : Prop where
  grow : ∀ {m n ts a}, m ≤ n → L m ts a → L n ts a

class Productive (L : Language α) : Prop where
  sentence : ∀ n, ∃ ts a, L n ts a

instance (a : α) : Growing (empty a) := ⟨fun _ h => h⟩

instance (a : α) : Productive (empty a) := ⟨fun _ => ⟨[], a, rfl, rfl⟩⟩

instance (k : TokenKind) : Growing (token k) := ⟨fun _ h => h⟩

instance (k : TokenKind) : Productive (token k) :=
  ⟨fun _ => ⟨[.plain k], .plain k, rfl, rfl⟩⟩

instance (L : Language α) (M : α → Language β) [Growing L] [∀ a, Growing (M a)] :
    Growing (L.andThen M) where
  grow hle := by
    rintro ⟨us, a, vs, rfl, hL, hM⟩
    exact ⟨us, a, vs, rfl, Growing.grow hle hL, Growing.grow hle hM⟩

instance (L : Language α) (M : α → Language β) [Productive L] [∀ a, Productive (M a)] :
    Productive (L.andThen M) where
  sentence n := by
    obtain ⟨us, a, hL⟩ := Productive.sentence (L := L) n
    obtain ⟨vs, b, hM⟩ := Productive.sentence (L := M a) n
    exact ⟨us ++ vs, b, us, a, vs, rfl, hL, hM⟩

instance (derives : List Token → α → Prop) (nesting : α → Nat) :
    Growing (bounded derives nesting) :=
  ⟨fun hle h => ⟨h.1, Nat.le_trans h.2 hle⟩⟩

instance (k : TokenKind) (Y N : Language α) [Growing Y] [Growing N] :
    Growing (optional k Y N) where
  grow hle := by
    rintro (⟨t, us, rfl, ht, hY⟩ | hN)
    · exact .inl ⟨t, us, rfl, ht, Growing.grow hle hY⟩
    · exact .inr (Growing.grow hle hN)

instance (k : TokenKind) (Y N : Language α) [Productive N] : Productive (optional k Y N) where
  sentence n := by
    obtain ⟨ts, a, hN⟩ := Productive.sentence (L := N) n
    exact ⟨ts, a, .inr hN⟩

instance (L : Language α) [Growing L] : Growing L.nested where
  grow hle := by
    rintro ⟨m, rfl, h⟩
    obtain ⟨k, rfl⟩ := Nat.exists_eq_add_of_le hle
    exact ⟨m + k, by omega, Growing.grow (Nat.le_add_right m k) h⟩

instance {ω : Type} (op? : TokenKind → Option ω) (L : Language α) [Growing L] :
    Growing (Chained op? L) where
  grow hle h := by
    induction h with
    | nil => exact .nil
    | cons hop hL _ ih => exact .cons hop (Growing.grow hle hL) ih

instance {ω : Type} (op? : TokenKind → Option ω) (L : Language α) :
    Productive (Chained op? L) := ⟨fun _ => ⟨[], [], .nil⟩⟩

instance (k : TokenKind) (L : Language α) [Growing L] : Growing (Listed k L) where
  grow hle h := by
    induction h with
    | nil => exact .nil
    | cons ht hL _ ih => exact .cons ht (Growing.grow hle hL) ih

instance (k : TokenKind) (L : Language α) : Productive (Listed k L) :=
  ⟨fun _ => ⟨[], [], .nil⟩⟩

instance (L : Language α) [Growing L] : Growing (Bracketed L) where
  grow hle h := by
    cases h with
    | none hlp hrp => exact .none hlp hrp
    | some hlp hx hxs hrp => exact .some hlp (Growing.grow hle hx) (Growing.grow hle hxs) hrp

instance (L : Language α) : Productive (Bracketed L) :=
  ⟨fun _ => ⟨[.plain .leftParen, .plain .rightParen], [], .none rfl rfl⟩⟩

instance (L : Language α) [Growing L] : Growing (Repeated L) where
  grow hle h := by
    induction h with
    | nil => exact .nil
    | cons hL _ ih => exact .cons (Growing.grow hle hL) ih

instance (L : Language α) : Productive (Repeated L) := ⟨fun _ => ⟨[], [], .nil⟩⟩

/-! ## Beginnings of sentences -/

/-- The tokens are the beginning of a sentence. -/
def Begins (L : Language α) (n : Nat) (ts : List Token) : Prop :=
  ∃ us a, L n (ts ++ us) a

/-- The tokens are the beginning of a sentence once enough levels are free. -/
def Promises (L : Language α) (ts : List Token) : Prop := ∃ n, L.Begins n ts

theorem Begins.mono {L M : Language α} {n : Nat} {ts : List Token} (h : L.Begins n ts)
    (hLM : ∀ {us a}, L n us a → M n us a) : M.Begins n ts := by
  obtain ⟨us, a, ha⟩ := h
  exact ⟨us, a, hLM ha⟩

theorem Begins.andThen {L : Language α} {M : α → Language β} [∀ a, Productive (M a)]
    {n : Nat} {ts : List Token} (h : L.Begins n ts) : (L.andThen M).Begins n ts := by
  obtain ⟨us, a, hL⟩ := h
  obtain ⟨vs, b, hM⟩ := Productive.sentence (L := M a) n
  exact ⟨us ++ vs, b, ts ++ us, a, vs, (List.append_assoc ..).symm, hL, hM⟩

theorem Begins.behind {L : Language α} {M : α → Language β} {n : Nat} {a : α}
    {us vs : List Token} (hL : L n us a) (h : (M a).Begins n vs) :
    (L.andThen M).Begins n (us ++ vs) := by
  obtain ⟨ws, b, hM⟩ := h
  exact ⟨ws, b, us, a, vs ++ ws, List.append_assoc .., hL, hM⟩

theorem Promises.andThen {L : Language α} {M : α → Language β} [∀ a, Productive (M a)]
    {ts : List Token} (h : L.Promises ts) : (L.andThen M).Promises ts := by
  obtain ⟨n, hn⟩ := h
  exact ⟨n, hn.andThen⟩

theorem Promises.behind {L : Language α} {M : α → Language β} [Growing L]
    [∀ a, Growing (M a)] {n : Nat} {a : α} {us vs : List Token} (hL : L n us a)
    (h : (M a).Promises vs) : (L.andThen M).Promises (us ++ vs) := by
  obtain ⟨m, ws, b, hM⟩ := h
  exact ⟨max n m, .behind (Growing.grow (Nat.le_max_left ..) hL)
    ⟨ws, b, Growing.grow (Nat.le_max_right ..) hM⟩⟩

end Language

end WorkflowScript
