import WorkflowScript.Proofs.Parser.Runs

/-!
# Relations that parsers keep

To compare two parsers of the same production, be it on different sources or
with different levels, it is enough to say what they have to do with each
other where they differ. A `QuietCongruence` is a relation between parsers
that holds of every primitive and itself, and that every way of putting
parsers together keeps, as far as they report nothing on their own. In a
`Congruence` they may. There is one lemma here for each combinator, and one
for each production in `Proofs.Workflow.Congruence`.
-/

namespace WorkflowScript.Parser

/-- A relation between parsers that all ways of putting them together keep,
but for reports. -/
structure QuietCongruence (σ τ : Type) [TokenSource σ] [TokenSource τ] where
  Rel : {α : Type} → Parser σ α → Parser τ α → Prop
  pure {α : Type} (a : α) : Rel (Pure.pure a) (Pure.pure a)
  bind {α β : Type} {p : Parser σ α} {q : Parser τ α} {f : α → Parser σ β} {g : α → Parser τ β} :
    Rel p q → (∀ a, Rel (f a) (g a)) → Rel (p >>= f) (q >>= g)
  peek : Rel Parser.peek Parser.peek
  place : Rel Parser.place Parser.place
  unexpected {α : Type} (expected : Expected) :
    Rel (Parser.unexpected expected : Parser σ α) (Parser.unexpected expected)
  advance : Rel Parser.advance Parser.advance
  /-- A loop reads off the cursor how many turns it may take. -/
  sized {α : Type} {p : Nat → Parser σ α} {q : Nat → Parser τ α} :
    (∀ turns, Rel (p turns) (q turns)) →
      Rel (fun c => p (c.size + 1) c) (fun c => q (c.size + 1) c)

/-- A relation between parsers that all ways of putting them together keep. -/
structure Congruence (σ τ : Type) [TokenSource σ] [TokenSource τ] extends
    QuietCongruence σ τ where
  notify (event : Event) : Rel (Parser.notify event) (Parser.notify event)

namespace QuietCongruence

variable {σ τ α β ω : Type} [TokenSource σ] [TokenSource τ] (C : QuietCongruence σ τ)

theorem map (f : α → β) {p : Parser σ α} {q : Parser τ α} (h : C.Rel p q) :
    C.Rel (f <$> p) (f <$> q) :=
  C.bind h fun a => C.pure (f a)

theorem expect (k : TokenKind) : C.Rel (Parser.expect k) (Parser.expect k) := by
  refine C.bind C.peek fun k' => ?_
  split
  · exact C.advance
  · exact C.unexpected _

theorem accept (k : TokenKind) : C.Rel (Parser.accept k) (Parser.accept k) := by
  refine C.bind C.peek fun k' => ?_
  split
  · exact C.bind C.advance fun _ => C.pure _
  · exact C.pure _

theorem toEnd {p : Parser σ α} {q : Parser τ α} (h : C.Rel p q) :
    C.Rel (Parser.toEnd p) (Parser.toEnd q) :=
  C.bind h fun _ => C.bind (C.expect _) fun _ => C.pure _

/-! ## Loops -/

section Loops

variable {p : Parser σ α} {q : Parser τ α} (h : C.Rel p q)

include h

theorem chainTurns (op? : TokenKind → Option ω) :
    ∀ turns, C.Rel (Parser.chainTurns op? p turns) (Parser.chainTurns op? q turns)
  | 0 => C.pure _
  | turns + 1 => C.bind C.peek fun k => by
      cases op? k with
      | none => exact C.pure _
      | some op =>
          exact C.bind C.advance fun _ => C.bind h fun _ =>
            C.bind (chainTurns op? turns) fun _ => C.pure _

theorem chain (op? : TokenKind → Option ω) :
    C.Rel (Parser.chain op? p) (Parser.chain op? q) :=
  C.sized (C.chainTurns h op?)

theorem repeatTurns (stop : TokenKind → Bool) :
    ∀ turns, C.Rel (Parser.repeatTurns stop p turns) (Parser.repeatTurns stop q turns)
  | 0 => C.pure _
  | turns + 1 => C.bind C.peek fun k => by
      cases stop k with
      | true => exact C.pure _
      | false =>
          exact C.bind h fun _ => C.bind (repeatTurns stop turns) fun _ => C.pure _

theorem repeatUntil (stop : TokenKind → Bool) :
    C.Rel (Parser.repeatUntil stop p) (Parser.repeatUntil stop q) :=
  C.sized (C.repeatTurns h stop)

theorem chainOn (k : TokenKind) : C.Rel (Parser.chainOn k p) (Parser.chainOn k q) :=
  C.bind (C.chain h _) fun _ => C.pure _

theorem bracketed : C.Rel (Parser.bracketed p) (Parser.bracketed q) := by
  refine C.bind (C.expect _) fun _ => C.bind (C.accept _) fun closed => ?_
  cases closed with
  | true => exact C.pure _
  | false =>
      exact C.bind h fun _ => C.bind (C.chainOn h _) fun _ => C.bind (C.expect _) fun _ =>
        C.pure _

end Loops

end QuietCongruence

/-- The relation that holds of all parsers. -/
def Congruence.any {σ τ : Type} [TokenSource σ] [TokenSource τ] : Congruence σ τ where
  Rel _ _ := True
  pure _ := trivial
  bind _ _ := trivial
  peek := trivial
  place := trivial
  unexpected _ := trivial
  notify _ := trivial
  advance := trivial
  sized _ := trivial

end WorkflowScript.Parser
