import WorkflowScript.Token.Basic

/-!
# Counting the open constructs

How many constructs are open around a token can be read off the tokens in
front of it, without a parser: groups and argument lists go from one bracket
to the other, and the statements with a body from their keyword to an `end`.
Two tokens look as if they opened a construct and do not. The bracket behind
the name of a definition opens its parameters, and an `if` in the head of a
transition its guard.

A token belongs to the construct that it opens, and to the one that it closes.
So the count at a token is the larger of the numbers in front of it and behind
it (`Surroundings.count`).
-/

namespace WorkflowScript

/-- What is open between two tokens. -/
structure Surroundings where
  /-- Groups and argument lists. -/
  brackets : Nat
  /-- Statements with a body. -/
  statements : Nat
  /-- The parameters of a definition are still to come. -/
  heading : Bool
  /-- A guard may still come. -/
  guarding : Bool
deriving DecidableEq

namespace Surroundings

/-- In front of the first token. -/
def outermost : Surroundings := ⟨0, 0, false, false⟩

/-- The number of constructs. -/
def total (s : Surroundings) : Nat := s.brackets + s.statements

/-- What is open behind the next token. Brackets close the innermost one, and
nothing where they close parameters; `end` closes the innermost statement, and
nothing where it closes an action, a node or a workflow. -/
def step (s : Surroundings) : TokenKind → Surroundings
  | .leftParen =>
    if s.heading then { s with heading := false } else { s with brackets := s.brackets + 1 }
  | .rightParen => { s with brackets := s.brackets - 1 }
  | .kwDef => { s with statements := s.statements + 1, heading := true }
  | .kwFor => { s with statements := s.statements + 1 }
  | .kwIf =>
    if s.guarding then { s with guarding := false } else { s with statements := s.statements + 1 }
  | .kwEnd => { s with statements := s.statements - 1 }
  | .kwTransition => { s with guarding := true }
  | .kwEnter | .kwLeave => { s with guarding := false }
  | _ => s

/-- How many constructs are open around the next token, itself included. -/
def count (s : Surroundings) (k : TokenKind) : Nat := max s.total (s.step k).total

/-- The next token opens a construct. -/
def Opens (s : Surroundings) : TokenKind → Prop
  | .leftParen => s.heading = false
  | .kwDef | .kwFor => True
  | .kwIf => s.guarding = false
  | _ => False

/-- What is open behind some tokens. -/
def after (s : Surroundings) : List Token → Surroundings
  | [] => s
  | t :: ts => (s.step t.kind).after ts

/-- The count at each of some tokens. -/
def counts (s : Surroundings) : List Token → List Nat
  | [] => []
  | t :: ts => s.count t.kind :: (s.step t.kind).counts ts

@[simp] theorem after_nil (s : Surroundings) : s.after [] = s := rfl

@[simp] theorem counts_nil (s : Surroundings) : s.counts [] = [] := rfl

@[simp] theorem after_cons (s : Surroundings) (t : Token) (ts : List Token) :
    s.after (t :: ts) = (s.step t.kind).after ts := rfl

@[simp] theorem counts_cons (s : Surroundings) (t : Token) (ts : List Token) :
    s.counts (t :: ts) = s.count t.kind :: (s.step t.kind).counts ts := rfl

theorem after_append (s : Surroundings) (ts us : List Token) :
    s.after (ts ++ us) = (s.after ts).after us := by
  induction ts generalizing s with
  | nil => rfl
  | cons t ts ih => exact ih _

theorem counts_append (s : Surroundings) (ts us : List Token) :
    s.counts (ts ++ us) = s.counts ts ++ (s.after ts).counts us := by
  induction ts generalizing s with
  | nil => rfl
  | cons t ts ih => rw [List.cons_append, counts_cons, ih]; rfl

/-- A token that opens nothing. -/
theorem count_of_le {s : Surroundings} {k : TokenKind} (h : (s.step k).total ≤ s.total) :
    s.count k = s.total :=
  Nat.max_eq_left h

/-! ## Tokens that open something -/

/-- Behind an opening bracket. -/
def inBracket (s : Surroundings) : Surroundings := { s with brackets := s.brackets + 1 }

/-- Behind the keyword of a statement with a body. -/
def inBody (s : Surroundings) : Surroundings := { s with statements := s.statements + 1 }

/-- Behind the keyword of a definition. -/
def inHead (s : Surroundings) : Surroundings := { s.inBody with heading := true }

theorem step_leftParen {s : Surroundings} (h : s.heading = false) :
    s.step .leftParen = s.inBracket :=
  if_neg (by rw [h]; decide)

theorem step_kwIf {s : Surroundings} (h : s.guarding = false) : s.step .kwIf = s.inBody :=
  if_neg (by rw [h]; decide)

theorem total_inBracket (s : Surroundings) : s.inBracket.total = s.total + 1 :=
  Nat.add_right_comm ..

/-- A token that opens a construct belongs to it. -/
theorem count_of_opens {s : Surroundings} {k : TokenKind} (h : s.Opens k) :
    s.count k = s.total + 1 := by
  have htotal : (s.step k).total = s.total + 1 := by
    cases k with
    | leftParen => rw [step_leftParen h, total_inBracket]
    | kwIf =>
        rw [step_kwIf h]
        rfl
    | kwDef | kwFor => rfl
    | _ => cases h
  rw [count, htotal]
  exact Nat.max_eq_right (Nat.le_succ _)

theorem Opens.kind_ne {s : Surroundings} {k : TokenKind} (h : s.Opens k) : k ≠ .endOfInput := by
  rintro rfl
  exact h

/-! ## Tokens that change nothing -/

/-- Neither opens nor closes anything, and is not the end of the input. -/
def inert : TokenKind → Bool
  | .leftParen | .rightParen | .kwDef | .kwFor | .kwIf | .kwEnd | .kwTransition | .kwEnter
  | .kwLeave | .endOfInput => false
  | _ => true

theorem step_of_inert {k : TokenKind} (h : inert k = true) (s : Surroundings) : s.step k = s := by
  cases k <;> first | rfl | cases h

theorem kind_ne_of_inert {k : TokenKind} (h : inert k = true) : k ≠ .endOfInput := by
  rintro rfl
  cases h

theorem count_of_inert {k : TokenKind} (h : inert k = true) (s : Surroundings) :
    s.count k = s.total :=
  count_of_le (Nat.le_of_eq (by rw [step_of_inert h]))

/-! ## Tokens that close something -/

theorem count_rightParen (s : Surroundings) : s.count .rightParen = s.total :=
  count_of_le (Nat.add_le_add_right (Nat.sub_le ..) _)

theorem count_kwEnd (s : Surroundings) : s.count .kwEnd = s.total :=
  count_of_le (Nat.add_le_add_left (Nat.sub_le ..) _)

/-! ## Where a parser stands -/

/-- Within `n` constructs, where an expression may stand. -/
structure Inside (n : Nat) (s : Surroundings) : Prop where
  total_eq : s.total = n
  heading_eq : s.heading = false

/-- Within `n` constructs, where a statement may stand. -/
structure Between (n : Nat) (s : Surroundings) : Prop extends s.Inside n where
  brackets_eq : s.brackets = 0
  guarding_eq : s.guarding = false

/-- Outside of all constructs. -/
structure Outside (s : Surroundings) : Prop where
  brackets_eq : s.brackets = 0
  statements_eq : s.statements = 0
  heading_eq : s.heading = false

variable {s : Surroundings} {n : Nat}

theorem Inside.count_of_opens (h : s.Inside n) {k : TokenKind} (hopens : s.Opens k) :
    s.count k = n + 1 := by
  rw [Surroundings.count_of_opens hopens, h.total_eq]

theorem Inside.inBracket (h : s.Inside n) : s.inBracket.Inside (n + 1) :=
  ⟨by rw [total_inBracket, h.total_eq], h.heading_eq⟩

theorem Between.inBody (h : s.Between n) : s.inBody.Between (n + 1) :=
  ⟨⟨congrArg (· + 1) h.total_eq, h.heading_eq⟩, h.brackets_eq, h.guarding_eq⟩

/-- The brackets behind the name of a definition open nothing. -/
theorem Between.step_inHead (h : s.Between n) : s.inHead.step .leftParen = s.inBody := by
  obtain ⟨brackets, statements, heading, guarding⟩ := s
  obtain rfl : heading = false := h.heading_eq
  rfl

theorem Between.count_inHead (h : s.Between n) : s.inHead.count .leftParen = n + 1 :=
  (count_of_le (Nat.le_of_eq (by rw [h.step_inHead]; rfl))).trans h.inBody.total_eq

/-- A definition whose body calls a function with a group as its argument. -/
example : outermost.counts (([.kwDef, .identifier, .leftParen, .identifier, .rightParen,
      .identifier, .leftParen, .leftParen, .integer, .rightParen, .rightParen, .kwEnd] :
      List TokenKind).map fun k => ⟨k, "", .start⟩) = [1, 1, 1, 1, 1, 1, 2, 3, 3, 3, 2, 1] := rfl

/-- Between statements no bracket is open that could be closed. -/
theorem Between.step_rightParen (h : s.Between n) : s.step .rightParen = s := by
  obtain ⟨brackets, statements, heading, guarding⟩ := s
  obtain rfl : brackets = 0 := h.brackets_eq
  rfl

theorem Outside.inside (h : s.Outside) : s.Inside 0 :=
  ⟨by rw [total, h.brackets_eq, h.statements_eq], h.heading_eq⟩

theorem Outside.between (h : s.Outside) (hguarding : s.guarding = false) : s.Between 0 :=
  ⟨h.inside, h.brackets_eq, hguarding⟩

/-- Behind the keyword of an action no guard may come. -/
theorem Outside.enter (h : s.Outside) {k : TokenKind} (hk : k = .kwEnter ∨ k = .kwLeave) :
    s.count k = 0 ∧ (s.step k).Outside ∧ (s.step k).guarding = false := by
  have houtside : Outside { s with guarding := false } :=
    ⟨h.brackets_eq, h.statements_eq, h.heading_eq⟩
  have hcount : Nat.max s.total s.total = 0 := (Nat.max_self _).trans h.inside.total_eq
  rcases hk with rfl | rfl
  · exact ⟨hcount, houtside, rfl⟩
  · exact ⟨hcount, houtside, rfl⟩

theorem Outside.count_kwTransition (h : s.Outside) : s.count .kwTransition = 0 :=
  (count_of_le (Nat.le_refl _)).trans h.inside.total_eq

/-- Behind the keyword of a transition a guard may come, -/
theorem Outside.step_kwTransition (h : s.Outside) : (s.step .kwTransition).Outside :=
  ⟨h.brackets_eq, h.statements_eq, h.heading_eq⟩

/-- and its keyword is no conditional. -/
theorem Outside.count_guard (h : s.Outside) : (s.step .kwTransition).count .kwIf = 0 :=
  (count_of_le (Nat.le_refl _)).trans h.inside.total_eq

theorem Outside.step_guard (h : s.Outside) : ((s.step .kwTransition).step .kwIf).Outside :=
  ⟨h.brackets_eq, h.statements_eq, h.heading_eq⟩

theorem Outside.count_kwEnd (h : s.Outside) : s.count .kwEnd = 0 :=
  (Surroundings.count_kwEnd s).trans h.inside.total_eq

theorem Outside.step_kwEnd (h : s.Outside) : (s.step .kwEnd).Outside :=
  ⟨h.brackets_eq, congrArg (· - 1) h.statements_eq, h.heading_eq⟩

end Surroundings

end WorkflowScript
