import WorkflowScript.Proofs.Token.Reading
import WorkflowScript.Proofs.Token.Trivia

/-!
# Texts as sequences of tokens

`Lexes p text ts q`: from the position `p` on, the text is the tokens `ts`
with trivia in front of each one and behind the last, and it ends at `q`.
Every text lexes (`exists_lexes`), and what it lexes as is what the scanner
reads (`Lexes.consumes`, `Lexes.tokenize_eq`). So a statement about the
tokens of one text and those of another can be proved by induction on the
relation, without a look at the scanner.

Since a token is cut off in front of whatever replaces its rest, and trivia
is skipped wherever a comment still ends, texts can be put together: behind
trivia (`Lexes.behind`) and behind a line (`Lexes.append_line`). And a text
that starts elsewhere has the same tokens elsewhere (`Lexes.move`).
-/

namespace WorkflowScript

open WorkflowScript.Lexical

namespace Lexical

/-! ## Tokens in front of a text -/

theorem Splits.ne_nil {k : TokenKind} {text rest : List Char} (h : Splits k text rest) :
    text ≠ [] := by
  obtain ⟨c, cs, rfl, -⟩ := h
  exact List.cons_ne_nil c cs

/-- No token that is cut off is the end of the input. -/
theorem splitLexeme_kind_ne (c : Char) (cs : List Char) :
    (splitLexeme c cs).kind ≠ .endOfInput := by
  intro hkind
  have hspells := spells_splitLexeme c cs
  rw [hkind] at hspells
  have hempty : String.ofList (splitLexeme c cs).text = "" := of_decide_eq_true hspells
  exact splitLexeme_text_ne_nil c cs (String.ofList_eq_empty_iff.mp hempty)

theorem Splits.kind_ne {k : TokenKind} {text rest : List Char} (h : Splits k text rest) :
    k ≠ .endOfInput := by
  obtain ⟨c, cs, rfl, -, -, hsplit⟩ := h
  have hkind := splitLexeme_kind_ne c (cs ++ rest)
  rwa [hsplit] at hkind

/-- What starts with no trivia starts with a token. -/
theorem exists_splits {c : Char} {cs : List Char} (hblank : Text.isBlank c = false)
    (hcomment : ¬ (c = '/' ∧ cs.head? = some '/')) :
    ∃ k text rest, c :: cs = text ++ rest ∧ Splits k text rest := by
  have htext := splitLexeme_append c cs
  have hne := splitLexeme_text_ne_nil c cs
  rcases hsplit : splitLexeme c cs with ⟨k, text, rest⟩
  rw [hsplit] at htext hne
  cases text with
  | nil => exact absurd rfl hne
  | cons d ds =>
      obtain ⟨rfl, rfl⟩ := List.cons.inj htext
      exact ⟨k, d :: ds, rest, rfl, d, ds, rfl, hblank, hcomment, hsplit⟩

/-- A text is trivia up to its end or up to a token. -/
theorem exists_trivia (cs : List Char) : ∃ gap rest, cs = gap ++ rest ∧ IsTrivia rest gap ∧
    (rest = [] ∨ ∃ k text rest', rest = text ++ rest' ∧ Splits k text rest') := by
  refine ⟨_, _, (splitTrivia_append .blank cs).symm, (splitTrivia_trivia cs).1, ?_⟩
  cases hrest : (splitTrivia .blank cs).2 with
  | nil => exact .inl rfl
  | cons c rest =>
      obtain ⟨hblank, hcomment⟩ := splitTrivia_stops hrest
      exact .inr (exists_splits hblank hcomment)

end Lexical

/-- The scanner moves over trivia. -/
theorem Scanner.next_trivia {rest gap : List Char} (h : IsTrivia rest gap) (p : Position) :
    next ⟨gap ++ rest, p⟩ = next ⟨rest, p.advanceBy gap⟩ := by
  simp only [next, h.split, Position.advanceBy_append]

/-! ## The relation -/

/-- From the first position on the text is the tokens, each behind trivia and
at its place, and ends at the second position. -/
inductive Lexes : Position → List Char → List Token → Position → Prop
  | nil {p gap} : IsTrivia [] gap → Lexes p gap [] (p.advanceBy gap)
  | cons {p gap rest t ts q} : IsTrivia (t.text.toList ++ rest) gap →
      Splits t.kind t.text.toList rest → t.position = p.advanceBy gap →
      Lexes (t.position.advanceBy t.text.toList) rest ts q →
      Lexes p (gap ++ (t.text.toList ++ rest)) (t :: ts) q

theorem exists_lexes (p : Position) (cs : List Char) : ∃ ts q, Lexes p cs ts q := by
  obtain ⟨gap, rest, rfl, hgap, rfl | ⟨k, text, rest, rfl, hsplits⟩⟩ := exists_trivia cs
  · rw [List.append_nil]
    exact ⟨[], _, .nil hgap⟩
  · have hpos := List.length_pos_iff.mpr hsplits.ne_nil
    obtain ⟨ts, q, hts⟩ := exists_lexes ((p.advanceBy gap).advanceBy text) rest
    rw [← String.toList_ofList (l := text)] at hgap hsplits hts ⊢
    exact ⟨_, q, .cons (t := ⟨k, String.ofList text, p.advanceBy gap⟩) hgap hsplits rfl hts⟩
termination_by cs.length
decreasing_by
  subst_vars
  simp only [List.length_append]
  omega

namespace Lexes

variable {p q : Position} {cs : List Char} {ts : List Token}

/-- What a text lexes as is what the scanner reads. -/
theorem consumes (h : Lexes p cs ts q) : ∃ c,
    (Cursor.ofSource (⟨cs, p⟩ : Scanner)).Consumes ts c ∧ c.current = .atEnd q := by
  induction h with
  | @nil p gap hgap =>
      refine ⟨_, rfl, ?_⟩
      have hnext := Scanner.next_trivia hgap p
      rw [List.append_nil] at hnext
      simp only [Cursor.ofSource, TokenSource.next, hnext]
      rfl
  | @cons p gap rest t ts q hgap hsplits hp _ ih =>
      obtain ⟨c, hc, hend⟩ := ih
      have hcursor : Cursor.ofSource (⟨gap ++ (t.text.toList ++ rest), p⟩ : Scanner) =
          ⟨⟨rest, t.position.advanceBy t.text.toList⟩, t⟩ := by
        simp only [Cursor.ofSource, TokenSource.next, Scanner.next_trivia hgap, ← hp,
          Scanner.next_splits hsplits, String.ofList_toList]
      rw [hcursor]
      exact ⟨c, ⟨rfl, hsplits.kind_ne, hc⟩, hend⟩

theorem kind_ne (h : Lexes p cs ts q) : ∀ t ∈ ts, t.kind ≠ .endOfInput := by
  induction h with
  | nil _ => exact fun t ht => nomatch ht
  | cons _ hsplits _ _ ih => exact List.forall_mem_cons.mpr ⟨hsplits.kind_ne, ih⟩

theorem wellSpelled (h : Lexes p cs ts q) : ∀ t ∈ ts, t.WellSpelled := by
  induction h with
  | nil _ => exact fun t ht => nomatch ht
  | @cons p gap rest t ts q _ hsplits _ _ ih =>
      have ht := hsplits.spells
      rw [String.ofList_toList] at ht
      exact List.forall_mem_cons.mpr ⟨ht, ih⟩

/-- A text lexes in one way. -/
theorem unique {us : List Token} {r : Position} (h : Lexes p cs ts q) (h' : Lexes p cs us r) :
    ts = us ∧ q = r := by
  obtain ⟨c, hc, hcq⟩ := h.consumes
  obtain ⟨d, hd, hdr⟩ := h'.consumes
  have hts := hc.eq_of_atEnd (by rw [hcq]; rfl) hd (by rw [hdr]; rfl)
  subst hts
  obtain rfl := hc.unique hd
  rw [hcq] at hdr
  exact ⟨rfl, congrArg Token.position hdr⟩

/-- Only trivia has no tokens in it. -/
theorem of_nil (h : Lexes p [] ts q) : ts = [] :=
  (h.unique (.nil .nil)).1

theorem ends (h : Lexes p cs ts q) : q = p.advanceBy cs := by
  induction h with
  | nil _ => rfl
  | cons _ _ hp _ ih => rw [ih, hp, Position.advanceBy_append, Position.advanceBy_append]

/-- In front of a text trivia is part of it. -/
theorem behind {gap : List Char} (hgap : IsTrivia cs gap) (h : Lexes (p.advanceBy gap) cs ts q) :
    Lexes p (gap ++ cs) ts q := by
  cases h with
  | nil hmore =>
      rw [← Position.advanceBy_append]
      refine .nil (IsTrivia.append ?_ hmore)
      rwa [List.append_nil]
  | cons hmore hsplits hp hrest =>
      rw [← Position.advanceBy_append] at hp
      rw [← List.append_assoc]
      exact .cons (hgap.append hmore) hsplits hp hrest

/-- A text with a line of its own behind it: a line feed ends every token but
an open string, and every comment. -/
theorem append_line {ds : List Char} {us : List Token} {r : Position} (h : Lexes p cs ts q)
    (hts : ∀ t ∈ ts, t.kind ≠ .invalid) (h' : Lexes (q.advance '\n') ds us r) :
    Lexes p (cs ++ '\n' :: ds) (ts ++ us) r := by
  have hblank : Text.isBlank '\n' := by decide
  induction h with
  | @nil p gap hgap =>
      have hline : IsTrivia ('\n' :: ds) gap := hgap.replace fun _ => .inr rfl
      have hfeed : IsTrivia ds (gap ++ ['\n']) := hline.append (.blank hblank .nil)
      have hposition : p.advanceBy (gap ++ ['\n']) = (p.advanceBy gap).advance '\n' :=
        Position.advanceBy_append p gap ['\n']
      rw [← hposition] at h'
      have hbehind := behind hfeed h'
      rwa [List.append_assoc] at hbehind
  | @cons p gap rest t ts q hgap hsplits hp _ ih =>
      obtain ⟨ht, hts⟩ := List.forall_mem_cons.mp hts
      have hsplits' : Splits t.kind t.text.toList (rest ++ '\n' :: ds) := by
        refine hsplits.replace ?_ fun hinvalid => absurd hinvalid ht
        by_cases hrest : rest = []
        · subst hrest
          exact .inl (isApart_of_isBlank hblank ds)
        · exact .append hrest _
      have hcons := Lexes.cons (hgap.before hsplits.ne_nil) hsplits' hp (ih hts h')
      rw [List.append_assoc, List.append_assoc]
      exact hcons

end Lexes

/-! ## Texts that start elsewhere -/

/-- The token somewhere else. -/
def Token.mapPosition (f : Position → Position) (t : Token) : Token :=
  { t with position := f t.position }

@[simp] theorem Token.mapPosition_kind (f : Position → Position) (t : Token) :
    (t.mapPosition f).kind = t.kind := rfl

@[simp] theorem Token.mapPosition_text (f : Position → Position) (t : Token) :
    (t.mapPosition f).text = t.text := rfl

@[simp] theorem Token.mapPosition_position (f : Position → Position) (t : Token) :
    (t.mapPosition f).position = f t.position := rfl

section Moving

variable {f : Position → Position} (hf : ∀ p c, f (p.advance c) = (f p).advance c)
include hf

theorem Position.map_advanceBy (p : Position) (cs : List Char) :
    f (p.advanceBy cs) = (f p).advanceBy cs := by
  induction cs generalizing p with
  | nil => rfl
  | cons c cs ih => rw [advanceBy_cons, ih, hf, advanceBy_cons]

/-- Where a text starts does not matter for its tokens but for their
positions, which move along. -/
theorem Lexes.move {p q : Position} {cs : List Char} {ts : List Token} (h : Lexes p cs ts q) :
    Lexes (f p) cs (ts.map (Token.mapPosition f)) (f q) := by
  induction h with
  | nil hgap =>
      rw [Position.map_advanceBy hf]
      exact .nil hgap
  | @cons p gap rest t ts q hgap hsplits hp _ ih =>
      rw [Position.map_advanceBy hf] at ih
      have ht : (t.mapPosition f).position = (f p).advanceBy gap := by
        rw [← Position.map_advanceBy hf, ← hp, Token.mapPosition_position]
      exact .cons (t := t.mapPosition f) hgap hsplits ht ih

end Moving

/-! ## All tokens of a text -/

namespace TokenSource

variable {σ : Type} [TokenSource σ] {s rest : σ} {t : Token} {limit : Nat}

theorem pullToEnd_last (h : next s = (t, rest)) (ht : t.kind = .endOfInput) :
    pullToEnd (limit + 1) s = [t] := by
  simp [pullToEnd, h, Token.isEnd, ht]

theorem pullToEnd_more (h : next s = (t, rest)) (ht : t.kind ≠ .endOfInput) :
    pullToEnd (limit + 1) s = t :: pullToEnd limit rest := by
  simp [pullToEnd, h, Token.isEnd, ht]

end TokenSource

theorem Cursor.size_ofSource_le {σ : Type} [TokenSource σ] (s : σ) :
    (Cursor.ofSource s).size ≤ TokenSource.size s := by
  have hle := TokenSource.size_next_le s
  have hlt := TokenSource.size_next_lt s
  unfold Cursor.size Cursor.ofSource
  by_cases hend : (TokenSource.next s).1.kind = .endOfInput
  · simpa [Token.isEnd, hend] using hle
  · have := hlt hend
    simp [Token.isEnd, hend]
    omega

/-- What can be consumed up to the end is what can be pulled. -/
theorem Cursor.Consumes.pullToEnd {σ : Type} [TokenSource σ] {s : σ} {c : Cursor σ}
    {ts : List Token} {limit : Nat} (h : (Cursor.ofSource s).Consumes ts c)
    (hend : c.current.kind = .endOfInput) (hlimit : ts.length < limit) :
    TokenSource.pullToEnd limit s = ts ++ [c.current] := by
  induction ts generalizing s limit with
  | nil =>
      obtain ⟨limit, rfl⟩ := Nat.exists_eq_add_of_lt hlimit
      obtain rfl := h
      exact TokenSource.pullToEnd_last rfl hend
  | cons t ts ih =>
      obtain ⟨hcur, hne, hrest⟩ := h
      cases limit with
      | zero => cases hlimit
      | succ limit =>
          have hnext : TokenSource.next s = (t, (TokenSource.next s).2) := by
            rw [← hcur]
            rfl
          have hmore := ih (s := (TokenSource.next s).2) hrest (Nat.lt_of_succ_lt_succ hlimit)
          rw [TokenSource.pullToEnd_more hnext hne, hmore]
          rfl

theorem Cursor.Consumes.drain {σ : Type} [TokenSource σ] {s : σ} {c : Cursor σ}
    {ts : List Token} (h : (Cursor.ofSource s).Consumes ts c)
    (hend : c.current.kind = .endOfInput) : TokenSource.drain s = ts ++ [c.current] := by
  have hle := h.size_le
  have hsize := Cursor.size_ofSource_le s
  exact h.pullToEnd hend (by omega)

/-- The tokens of a text, without the end of the input. -/
def lexemes (text : String) : List Token :=
  (tokenize text).filter fun t => t.kind ≠ .endOfInput

theorem Lexes.tokenize_eq {text : String} {ts : List Token} {q : Position}
    (h : Lexes .start text.toList ts q) : tokenize text = ts ++ [.atEnd q] := by
  obtain ⟨c, hc, hend⟩ := h.consumes
  have hdrain := hc.drain (by rw [hend]; rfl)
  rwa [hend] at hdrain

theorem Lexes.lexemes_eq {text : String} {ts : List Token} {q : Position}
    (h : Lexes .start text.toList ts q) : lexemes text = ts := by
  have hts : ts.filter (fun t => t.kind ≠ .endOfInput) = ts := by
    rw [List.filter_eq_self]
    intro t ht
    simpa using h.kind_ne t ht
  rw [lexemes, h.tokenize_eq, List.filter_append, hts]
  simp [Token.atEnd]

end WorkflowScript
