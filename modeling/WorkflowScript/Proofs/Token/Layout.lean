import WorkflowScript.Proofs.Token.Lexing

/-!
# Texts that are spaced differently

`Respaces words text`: the text is the words one behind the other, with
layout in front of the first and a separator in front of every other one.
If the words are the texts of a source's tokens, the text lexes as tokens of
the same kinds and texts (`Lexes.respace`): a word is cut off from its
separator as it was from what followed it in the source, since a separator
starts with a blank, and layout is trivia in front of anything, since its
comments are closed.
-/

namespace WorkflowScript

open WorkflowScript.Lexical

/-! ## Layout -/

/-- Blanks and comments, each comment with the line feed that closes it. -/
inductive IsLayout : List Char → Prop
  | nil : IsLayout []
  | blank {c cs} : Text.isBlank c → IsLayout cs → IsLayout (c :: cs)
  | comment {body cs} : '\n' ∉ body → IsLayout cs → IsLayout ('/' :: '/' :: body ++ '\n' :: cs)

/-- Layout that starts with a blank. -/
def Separates (gap : List Char) : Prop := IsLayout gap ∧ ∃ b ∈ gap.head?, Text.isBlank b

/-- Words with a separator in front of each one. -/
inductive Follows : List String → List Char → Prop
  | nil : Follows [] []
  | cons {gap w ws rest} : Separates gap → Follows ws rest →
      Follows (w :: ws) (gap ++ (w.toList ++ rest))

/-- Words with layout in front of the first one and a separator in front of
every other one. Without words there is only the layout. -/
inductive Respaces : List String → List Char → Prop
  | none {gap} : IsLayout gap → Respaces [] gap
  | some {gap w ws rest} : IsLayout gap → Follows ws rest →
      Respaces (w :: ws) (gap ++ (w.toList ++ rest))

/-- What a token says, without where it stands. -/
def Token.content (t : Token) : TokenKind × String := (t.kind, t.text)

/-! ## Layout as trivia -/

theorem IsLayout.isTrivia {gap : List Char} (h : IsLayout gap) (rest : List Char) :
    IsTrivia rest gap := by
  induction h with
  | nil => exact .nil
  | blank hc _ ih => exact .blank hc ih
  | comment hbody _ ih => exact .comment hbody (.inr rfl) (.blank (by decide) ih)

theorem Separates.isApart {gap : List Char} (h : Separates gap) (rest : List Char) :
    isApart (gap ++ rest) := by
  obtain ⟨-, b, hb, hblank⟩ := h
  cases gap with
  | nil => cases hb
  | cons c gap =>
      obtain rfl : c = b := by simpa using hb
      exact isApart_of_isBlank hblank (gap ++ rest)

theorem Follows.isApart {ws : List String} {rest : List Char} (h : Follows ws rest) :
    isApart rest := by
  cases h with
  | nil => rfl
  | cons hgap _ => exact hgap.isApart _

/-! ## The same tokens -/

namespace Lexes

variable {p q r : Position} {cs rest rest' gap : List Char} {t : Token} {ts : List Token}

/-- A token is read in front of words that are spaced differently. -/
theorem respace_cons (hgap : IsLayout gap) (hsplits : Splits t.kind t.text.toList rest)
    (hrest : Lexes r rest ts q) (hwords : Follows (ts.map Token.text) rest')
    (ih : ∀ r', ∃ us q', Lexes r' rest' us q' ∧ us.map Token.content = ts.map Token.content)
    (p' : Position) :
    ∃ us q', Lexes p' (gap ++ (t.text.toList ++ rest')) us q' ∧
      us.map Token.content = (t :: ts).map Token.content := by
  -- An open string is the last token, and then nothing stands behind it here, either.
  have hopen : t.kind = .invalid → rest = [] → rest' = [] := by
    rintro - rfl
    obtain rfl := hrest.of_nil
    cases hwords
    rfl
  have hsplits' := hsplits.replace (.inl hwords.isApart) hopen
  let t' : Token := t.mapPosition fun _ => p'.advanceBy gap
  obtain ⟨us, q', hus, hcontent⟩ := ih (t'.position.advanceBy t.text.toList)
  refine ⟨t' :: us, q', .cons (t := t') (hgap.isTrivia _) hsplits' rfl hus, ?_⟩
  rw [List.map_cons, List.map_cons, hcontent]
  rfl

theorem respace_behind (h : Lexes p cs ts q) : ∀ {text : List Char},
    Follows (ts.map Token.text) text → ∀ p', ∃ us q', Lexes p' text us q' ∧
      us.map Token.content = ts.map Token.content := by
  induction h with
  | nil _ =>
      intro text hwords p'
      cases hwords
      exact ⟨[], p', .nil .nil, rfl⟩
  | cons _ hsplits _ hrest ih =>
      intro text hwords
      cases hwords with
      | cons hgap hwords => exact respace_cons hgap.1 hsplits hrest hwords (ih hwords)

/-- Spacing words differently changes nothing but positions. -/
theorem respace (h : Lexes p cs ts q) {text : List Char}
    (hwords : Respaces (ts.map Token.text) text) (p' : Position) :
    ∃ us q', Lexes p' text us q' ∧ us.map Token.content = ts.map Token.content := by
  cases h with
  | nil _ =>
      cases hwords with
      | none hgap => exact ⟨[], _, .nil (hgap.isTrivia []), rfl⟩
  | cons _ hsplits _ hrest =>
      cases hwords with
      | some hgap hwords =>
          exact respace_cons hgap hsplits hrest hwords (hrest.respace_behind hwords) p'

end Lexes

end WorkflowScript
