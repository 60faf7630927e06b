import WorkflowScript.Proofs.Parser.Runs
import WorkflowScript.Proofs.Token.Spelling

/-!
# Reading a text piece by piece

`Reads text rest P`: wherever the scanner stands, if it has `text` in front
of it and `rest` behind that, then it comes to `rest` over tokens of which
`P` holds. The rules put the reading of a text together from its pieces. The
rest is part of the relation since a word must not run into what follows.
-/

namespace WorkflowScript

open WorkflowScript.Lexical

/-! ## What the scanner does at the front of a text -/

theorem Scanner.next_blank {b : Char} (hb : Text.isBlank b) (cs : List Char) (p : Position) :
    next ⟨b :: cs, p⟩ = next ⟨cs, p.advance b⟩ := by
  simp [next, splitTrivia, hb]

theorem Scanner.next_splits {k : TokenKind} {text rest : List Char} (h : Splits k text rest)
    (p : Position) :
    next ⟨text ++ rest, p⟩ = (⟨k, String.ofList text, p⟩, ⟨rest, p.advanceBy text⟩) := by
  obtain ⟨c, cs, rfl, hblank, hcomment, hsplit⟩ := h
  have htrivia : splitTrivia .blank (c :: (cs ++ rest)) = ([], c :: (cs ++ rest)) := by
    rw [splitTrivia, if_neg (by simp [hblank]), if_neg hcomment]
  simp only [next, List.cons_append, htrivia, Position.advanceBy_nil, tokenAt, hsplit]

/-! ## Sequences of tokens -/

/-- One token of this kind and text. -/
def OneToken (k : TokenKind) (text : String) (ts : List Token) : Prop :=
  ∃ p, ts = [⟨k, text, p⟩]

/-- Tokens of which `P` holds, and behind them tokens of which `Q` holds. -/
def Followed (P Q : List Token → Prop) (ts : List Token) : Prop :=
  ∃ us vs, ts = us ++ vs ∧ P us ∧ Q vs

/-! ## Reading -/

/-- In front of `rest`, the text is read as tokens of which `P` holds. -/
def Reads (text : String) (rest : List Char) (P : List Token → Prop) : Prop :=
  ∀ p : Position, ∃ ts q,
    (Cursor.ofSource (⟨text.toList ++ rest, p⟩ : Scanner)).Consumes ts
      (Cursor.ofSource ⟨rest, q⟩) ∧ P ts

namespace Reads

variable {text text' : String} {rest : List Char} {P Q : List Token → Prop}

theorem mono (h : Reads text rest P) (hPQ : ∀ ts, P ts → Q ts) : Reads text rest Q := by
  intro p
  obtain ⟨ts, q, hts, hP⟩ := h p
  exact ⟨ts, q, hts, hPQ ts hP⟩

theorem append (h : Reads text (text'.toList ++ rest) P) (h' : Reads text' rest Q) :
    Reads (text ++ text') rest (Followed P Q) := by
  intro p
  obtain ⟨us, q, hus, hP⟩ := h p
  obtain ⟨vs, r, hvs, hQ⟩ := h' q
  refine ⟨us ++ vs, r, ?_, us, vs, rfl, hP, hQ⟩
  rw [String.toList_append, List.append_assoc]
  exact hus.append hvs

/-- Blanks are no tokens. -/
theorem blank (h : text.toList.all Text.isBlank) : Reads text rest (· = []) := by
  intro p
  refine ⟨[], p.advanceBy text.toList, ?_, rfl⟩
  generalize text.toList = cs at h ⊢
  induction cs generalizing p with
  | nil => rfl
  | cons b cs ih =>
      obtain ⟨hb, hcs⟩ := Bool.and_eq_true_iff.mp h
      have hnext := Scanner.next_blank hb (cs ++ rest) p
      have hrest := ih (p.advance b) hcs
      rw [Cursor.consumes_nil] at hrest ⊢
      rw [Position.advanceBy_cons, hrest]
      simp only [Cursor.ofSource, TokenSource.next, List.cons_append, hnext]

theorem splits {k : TokenKind} (h : Splits k text.toList rest) (hk : k ≠ .endOfInput) :
    Reads text rest (OneToken k text) := by
  intro p
  have hnext := Scanner.next_splits h p
  have hcursor : Cursor.ofSource (⟨text.toList ++ rest, p⟩ : Scanner) =
      ⟨⟨rest, p.advanceBy text.toList⟩, ⟨k, text, p⟩⟩ := by
    simp only [Cursor.ofSource, TokenSource.next, hnext, String.ofList_toList]
  refine ⟨[⟨k, text, p⟩], p.advanceBy text.toList, ?_, p, rfl⟩
  rw [hcursor]
  exact ⟨rfl, hk, rfl⟩

/-- A text spelled as a kind demands is one token of that kind. -/
theorem token {k : TokenKind} (h : k.spells text) (hinvalid : k ≠ .invalid)
    (hend : k ≠ .endOfInput) (hrest : isApart rest) : Reads text rest (OneToken k text) :=
  splits (splits_of_spells h hinvalid hend hrest) hend

theorem name (h : isName text) (hrest : isApart rest) :
    Reads text rest (OneToken .identifier text) :=
  token h (by decide) (by decide) hrest

/-- An opening bracket does not mind what follows. -/
theorem leftParen (rest : List Char) : Reads "(" rest (OneToken .leftParen "(") :=
  splits (splits_punctuation (by decide) rfl nofun) (by decide)

/-- A keyword or punctuation behind blanks. -/
theorem spelled {k : TokenKind} (lead word : String) (htext : lead ++ word = text)
    (hk : k.spelling? = some word) (hlead : lead.toList.all Text.isBlank) (hrest : isApart rest) :
    Reads text rest (OneToken k word) := by
  have hword : Reads word rest (OneToken k word) := by
    refine token (spells_of_spelling? hk) ?_ ?_ hrest
    · intro hinvalid
      subst hinvalid
      cases hk
    · intro hend
      subst hend
      cases hk
  subst htext
  refine ((blank hlead).append hword).mono fun ts hts => ?_
  obtain ⟨_, vs, rfl, rfl, hvs⟩ := hts
  exact hvs

/-- A keyword or punctuation with blanks on both sides. -/
theorem padded {k : TokenKind} (lead word trail : String) (htext : lead ++ word ++ trail = text)
    (hk : k.spelling? = some word) (hlead : lead.toList.all Text.isBlank)
    (htrail : !trail.toList.isEmpty && trail.toList.all Text.isBlank) (rest : List Char) :
    Reads text rest (OneToken k word) := by
  obtain ⟨hne, hblank⟩ := Bool.and_eq_true_iff.mp htrail
  have happart : isApart (trail.toList ++ rest) := by
    cases h : trail.toList with
    | nil => simp [h] at hne
    | cons c cs =>
        rw [h] at hblank
        exact isApart_of_isBlank (Bool.and_eq_true_iff.mp hblank).1 _
  have hword := spelled lead word rfl hk hlead happart
  subst htext
  refine (hword.append (blank hblank)).mono fun ts hts => ?_
  obtain ⟨us, _, rfl, hus, rfl⟩ := hts
  rwa [List.append_nil]

end Reads

end WorkflowScript
