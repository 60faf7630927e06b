import WorkflowScript.Proofs.Token.Placement

/-!
# The classes of tokens

A token's kind can be told from its text alone, and for input that fits no
class from its text and what follows it: the scanner puts a token into a class
if and only if its text belongs there (`Splits.kind_iff`,
`Splits.invalid_iff`), and never ends a word or a number where it could go on
(`Splits.word_ends`, `Splits.digits_end`).

The classes are given by what their texts look like. For strings that is
`IsString`, which knows nothing of how the scanner finds the closing quote.
-/

namespace WorkflowScript

open WorkflowScript.Lexical

namespace Lexical

/-! ## Strings -/

/-- The characters between the quotes of a string. A backslash takes the
character behind it along, whatever that is; else there is no quote. -/
inductive IsStringBody : List Char → Prop
  | nil : IsStringBody []
  | plain {c cs} : c ≠ '"' → c ≠ '\\' → IsStringBody cs → IsStringBody (c :: cs)
  | escaped {c cs} : IsStringBody cs → IsStringBody ('\\' :: c :: cs)

/-- A string from its opening quote to the first quote that is not escaped. -/
def IsString (cs : List Char) : Prop := ∃ body, cs = '"' :: body ++ ['"'] ∧ IsStringBody body

/-- An opening quote, and no quote behind it that could close the string. -/
def IsUnclosed (cs : List Char) : Prop :=
  ∃ more, cs = '"' :: more ∧ ∀ body rest, more = body ++ '"' :: rest → ¬ IsStringBody body

/-- What is cut off up to the closing quote is a body and that quote. Behind
a backslash the body goes on with an escaped character. -/
theorem body_of_closeString {cs closed rest : List Char} :
    (closeString false cs = some (closed, rest) →
      ∃ body, closed = body ++ ['"'] ∧ IsStringBody body) ∧
    (closeString true cs = some (closed, rest) →
      ∃ body, closed = body ++ ['"'] ∧ IsStringBody ('\\' :: body)) := by
  induction cs generalizing closed with
  | nil => exact ⟨fun h => (nomatch h), fun h => (nomatch h)⟩
  | cons c cs ih =>
      constructor
      · intro h
        rw [closeString] at h
        split at h
        next hquote =>
            cases h
            exact ⟨[], by rw [hquote]; rfl, .nil⟩
        next hquote =>
            obtain ⟨⟨closed, _⟩, hclose, hcut⟩ := Option.map_eq_some_iff.mp h
            cases hcut
            by_cases hescape : c = '\\'
            · rw [hescape, decide_eq_true rfl] at hclose
              obtain ⟨body, rfl, hbody⟩ := ih.2 hclose
              exact ⟨c :: body, rfl, hescape ▸ hbody⟩
            · rw [decide_eq_false hescape] at hclose
              obtain ⟨body, rfl, hbody⟩ := ih.1 hclose
              exact ⟨c :: body, rfl, .plain hquote hescape hbody⟩
      · intro h
        obtain ⟨⟨closed, _⟩, hclose, hcut⟩ := Option.map_eq_some_iff.mp h
        cases hcut
        obtain ⟨body, rfl, hbody⟩ := ih.1 hclose
        exact ⟨c :: body, rfl, .escaped hbody⟩

theorem IsStringBody.closeString {body : List Char} (h : IsStringBody body) (rest : List Char) :
    closeString false (body ++ '"' :: rest) = some (body ++ ['"'], rest) := by
  induction h with
  | nil => rfl
  | plain hquote hescape _ ih => simp [Lexical.closeString, hquote, hescape, ih]
  | escaped _ ih => simp [Lexical.closeString, ih]

theorem closeString_eq_none_iff {cs : List Char} :
    closeString false cs = none ↔ ∀ body rest, cs = body ++ '"' :: rest → ¬ IsStringBody body := by
  constructor
  · rintro h body rest rfl hbody
    rw [hbody.closeString] at h
    cases h
  · intro h
    cases hclose : closeString false cs with
    | none => rfl
    | some cut =>
        obtain ⟨closed, rest⟩ := cut
        obtain ⟨body, rfl, hbody⟩ := body_of_closeString.1 hclose
        have hcs := closeString_append hclose
        rw [List.append_assoc] at hcs
        exact absurd hbody (h body rest hcs.symm)

theorem isQuoted_iff {text : String} : isQuoted text ↔ IsString text.toList := by
  unfold isQuoted
  constructor
  · intro h
    split at h
    next => cases h
    next c cs htext =>
        obtain ⟨hc, hclose⟩ := Bool.and_eq_true_iff.mp h
        obtain rfl := of_decide_eq_true hc
        obtain ⟨body, rfl, hbody⟩ := body_of_closeString.1 (of_decide_eq_true hclose)
        exact ⟨body, htext, hbody⟩
  · rintro ⟨body, htext, hbody⟩
    have hclose := hbody.closeString []
    simp [htext, hclose]

/-! ## Stray characters -/

/-- One character that is no blank and starts nothing else. -/
def IsStray (cs : List Char) : Prop :=
  ∃ c, cs = [c] ∧ Text.isBlank c = false ∧ isNameStart c = false ∧ isDigit c = false ∧ c ≠ '"' ∧
    ∀ k ∈ TokenKind.punctuation, k.spelling? ≠ some (String.singleton c)

theorem ofChar?_eq_none_iff {c : Char} : TokenKind.ofChar? c = none ↔
    ∀ k ∈ TokenKind.punctuation, k.spelling? ≠ some (String.singleton c) := by
  rw [TokenKind.ofChar?, List.find?_eq_none]
  simp

/-! ## What a token is -/

/-- A token is of a kind, if this is not the one for what fits no other, if
and only if its text is spelled like one. -/
theorem Splits.kind_iff {k k' : TokenKind} {text : String} {rest : List Char}
    (h : Splits k text.toList rest) (hk' : k' ≠ .invalid) : k = k' ↔ k'.spells text := by
  constructor
  · rintro rfl
    have hspells := h.spells
    rwa [String.ofList_toList] at hspells
  · intro hspells
    have hne : k' ≠ .endOfInput := by
      rintro rfl
      obtain rfl : text = "" := of_decide_eq_true hspells
      exact h.ne_nil rfl
    -- At the end of the text both kinds are what the same characters are cut off as.
    obtain ⟨c, cs, htext, -, -, hsplit⟩ := h.replace (.inl rfl) fun _ _ => rfl
    have hsplits : Splits k' text.toList [] := splits_of_spells hspells hk' hne rfl
    obtain ⟨c', cs', htext', -, -, hsplit'⟩ := hsplits
    obtain ⟨rfl, rfl⟩ := List.cons.inj (htext.symm.trans htext')
    exact congrArg Lexeme.kind (hsplit.symm.trans hsplit')

theorem ofWord_ne_invalid (word : String) : TokenKind.ofWord word ≠ .invalid := by
  intro h
  rcases ofWord_eq_identifier_or_mem word with ⟨hk, -⟩ | ⟨hk, -⟩
  · rw [hk] at h
    cases h
  · rw [h] at hk
    exact absurd hk (by decide)

theorem ofChar?_getD_eq_invalid {c : Char} (h : (TokenKind.ofChar? c).getD .invalid = .invalid) :
    TokenKind.ofChar? c = none := by
  cases hc : TokenKind.ofChar? c with
  | none => rfl
  | some k =>
      rw [hc] at h
      obtain rfl : k = .invalid := h
      exact absurd (ofChar?_mem hc).1 (by decide)

/-- A string that nothing closes is one token, and the last one. -/
theorem IsUnclosed.splits {k : TokenKind} {text rest : List Char} (h : IsUnclosed (text ++ rest))
    (hsplits : Splits k text rest) : k = .invalid ∧ rest = [] := by
  obtain ⟨c, cs, rfl, -, -, hsplit⟩ := hsplits
  obtain ⟨more, hmore, hopen⟩ := h
  rw [List.cons_append] at hmore
  obtain ⟨rfl, rfl⟩ := List.cons.inj hmore
  have hclose := closeString_eq_none_iff.mpr hopen
  rw [splitLexeme, if_neg (by decide), if_neg (by decide), if_pos rfl, hclose] at hsplit
  injection hsplit with hk _ hrest
  exact ⟨hk.symm, hrest.symm⟩

theorem Splits.invalid_iff {k : TokenKind} {text rest : List Char} (h : Splits k text rest) :
    k = .invalid ↔ IsStray text ∨ IsUnclosed (text ++ rest) := by
  constructor
  · rintro rfl
    obtain ⟨c, cs, rfl, hblank, -, hsplit⟩ := h
    unfold splitLexeme at hsplit
    split at hsplit
    next => exact absurd (congrArg Lexeme.kind hsplit) (ofWord_ne_invalid _)
    next hstart =>
      split at hsplit
      next => cases congrArg Lexeme.kind hsplit
      next hdigit =>
        split at hsplit
        next hquote =>
          subst hquote
          split at hsplit
          next => cases congrArg Lexeme.kind hsplit
          next hclose => exact .inr ⟨_, rfl, closeString_eq_none_iff.mp hclose⟩
        next hquote =>
          have hnone := ofChar?_getD_eq_invalid (congrArg Lexeme.kind hsplit)
          have hcs := congrArg Lexeme.text hsplit
          exact .inl ⟨c, hcs.symm, hblank, by simpa using hstart, by simpa using hdigit, hquote,
            ofChar?_eq_none_iff.mp hnone⟩
  · rintro (⟨c, rfl, -, hstart, hdigit, hquote, hnone⟩ | hopen)
    · obtain ⟨c', cs, htext, -, -, hsplit⟩ := h
      obtain ⟨rfl, rfl⟩ := List.cons.inj htext
      simp [splitLexeme, hstart, hdigit, hquote, ofChar?_eq_none_iff.mpr hnone] at hsplit
      exact hsplit.symm
    · exact (hopen.splits h).1

/-! ## Where a token ends -/

/-- A name or a keyword goes as far as it can. -/
theorem Splits.word_ends {k : TokenKind} {text : String} {rest : List Char}
    (h : Splits k text.toList rest) (hword : isWord text) : Ends rest := by
  obtain ⟨c, cs, htext, -, -, hsplit⟩ := h
  rw [isWord, htext] at hword
  obtain ⟨hstart, -⟩ := Bool.and_eq_true_iff.mp hword
  rw [splitLexeme, if_pos hstart] at hsplit
  injection hsplit with _ _ hdrop
  have hrest := head_dropWhile isNamePart (cs ++ rest)
  rw [hdrop] at hrest
  exact .of_head hrest

/-- A number goes as far as it can. -/
theorem Splits.digits_end {k : TokenKind} {text : String} {rest : List Char}
    (h : Splits k text.toList rest) (hdigits : isDigits text) :
    ∀ d ∈ rest.head?, isDigit d = false := by
  obtain ⟨c, cs, htext, -, -, hsplit⟩ := h
  rw [isDigits, htext] at hdigits
  obtain ⟨hdigit, -⟩ := Bool.and_eq_true_iff.mp (Bool.and_eq_true_iff.mp hdigits).2
  rw [splitLexeme, if_neg (by simp [isNameStart_of_isDigit hdigit]), if_pos hdigit] at hsplit
  injection hsplit with _ _ hdrop
  have hrest := head_dropWhile isDigit (cs ++ rest)
  rwa [hdrop] at hrest

end Lexical

/-! ## The token at a place -/

/-- Between the tokens in front of it and those behind it a token is cut off
at its place. -/
theorem Lexes.token_at {p q : Position} {cs : List Char} {ts : List Token} (h : Lexes p cs ts q) :
    ∀ {us vs t}, ts = us ++ t :: vs → ∃ before rest, cs = before ++ t.text.toList ++ rest ∧
      t.position = p.advanceBy before ∧ Splits t.kind t.text.toList rest ∧
        Lexes (t.position.advanceBy t.text.toList) rest vs q := by
  induction h with
  | nil _ =>
      intro us vs t hts
      exact absurd hts.symm (List.append_ne_nil_of_right_ne_nil _ (List.cons_ne_nil _ _))
  | @cons p gap rest u ts q hgap hsplits hp hrest ih =>
      intro us vs t hts
      cases us with
      | nil =>
          obtain ⟨rfl, rfl⟩ := List.cons.inj hts
          exact ⟨gap, rest, (List.append_assoc ..).symm, hp, hsplits, hrest⟩
      | cons u' us =>
          obtain ⟨rfl, rfl⟩ := List.cons.inj hts
          obtain ⟨before, back, rfl, hposition, hsplits', hlexes⟩ := ih rfl
          refine ⟨gap ++ u.text.toList ++ before, back, by simp, ?_, hsplits', hlexes⟩
          rw [hposition, hp, Position.advanceBy_append, Position.advanceBy_append]

/-- What the class of a token and its text say about each other. Behind the
token stands `rest`, which is read as the tokens `later`. -/
structure Token.Classified (t : Token) (rest : List Char) (later : List Token) : Prop where
  /-- A keyword is what is spelled like it. -/
  keyword : ∀ k ∈ TokenKind.keywords, t.kind = k ↔ k.spelling? = some t.text
  /-- A name is any other word. -/
  name : t.kind = .identifier ↔
    isWord t.text ∧ ∀ k ∈ TokenKind.keywords, k.spelling? ≠ some t.text
  /-- Neither could be longer. -/
  wordEnds : t.kind = .identifier ∨ t.kind ∈ TokenKind.keywords →
    ∀ c ∈ rest.head?, isNamePart c = false
  integer : t.kind = .integer ↔ isDigits t.text
  integerEnds : t.kind = .integer → ∀ c ∈ rest.head?, isDigit c = false
  string : t.kind = .string ↔ IsString t.text.toList
  punctuation : ∀ k ∈ TokenKind.punctuation, t.kind = k ↔ k.spelling? = some t.text
  /-- What fits no class is a stray character, or a quote that opens a string
  which the rest of the text does not close. -/
  invalid : t.kind = .invalid ↔ IsStray t.text.toList ∨ IsUnclosed (t.text.toList ++ rest)
  /-- Such a string is all that is left of the text. -/
  unclosed : IsUnclosed (t.text.toList ++ rest) → rest = [] ∧ ∃ p, later = [.atEnd p]
  atEnd : t.kind = .endOfInput ↔ t.text = ""

theorem Lexical.isWord_of_keyword {k : TokenKind} {text : String} (hk : k ∈ TokenKind.keywords)
    (h : k.spelling? = some text) : isWord text := by
  cases k <;> first | exact absurd hk (by decide) | (cases h; rfl)

theorem TokenKind.spells_empty_iff {k : TokenKind} (hk : k ≠ .invalid) :
    .endOfInput = k ↔ k.spells "" := by
  cases k <;> first | exact absurd rfl hk | decide

theorem Lexical.isName_iff {text : String} : isName text ↔
    isWord text ∧ ∀ k ∈ TokenKind.keywords, k.spelling? ≠ some text := by
  rw [isName, Bool.and_eq_true, Option.isNone_iff_eq_none, TokenKind.keyword?, List.find?_eq_none]
  simp

/-- All classes but the one for what fits no other are told by the text. -/
theorem Token.Classified.of_spells {t : Token} {rest : List Char} {later : List Token}
    (hkind : ∀ k, k ≠ .invalid → (t.kind = k ↔ k.spells t.text))
    (wordEnds : isWord t.text → ∀ c ∈ rest.head?, isNamePart c = false)
    (integerEnds : isDigits t.text → ∀ c ∈ rest.head?, isDigit c = false)
    (invalid : t.kind = .invalid ↔ IsStray t.text.toList ∨ IsUnclosed (t.text.toList ++ rest))
    (unclosed : IsUnclosed (t.text.toList ++ rest) → rest = [] ∧ ∃ p, later = [.atEnd p]) :
    t.Classified rest later := by
  have hspelled : ∀ k ∈ TokenKind.keywords ++ TokenKind.punctuation,
      t.kind = k ↔ k.spelling? = some t.text := by
    intro k hk
    rw [hkind k (by rintro rfl; exact absurd hk (by decide))]
    cases k <;> first | exact absurd hk (by decide) | simp [TokenKind.spells]
  refine ⟨fun k hk => hspelled k (List.mem_append_left _ hk), ?_, ?_, hkind _ (by decide), ?_, ?_,
    fun k hk => hspelled k (List.mem_append_right _ hk), invalid, unclosed, ?_⟩
  · exact (hkind _ (by decide)).trans isName_iff
  · rintro (hname | hkeyword)
    · exact wordEnds (isName_iff.mp ((hkind _ (by decide)).mp hname)).1
    · refine wordEnds ?_
      have hspelling := (hspelled _ (List.mem_append_left _ hkeyword)).mp rfl
      exact isWord_of_keyword hkeyword hspelling
  · exact fun hinteger => integerEnds ((hkind _ (by decide)).mp hinteger)
  · exact (hkind _ (by decide)).trans isQuoted_iff
  · exact (hkind _ (by decide)).trans (by simp [TokenKind.spells])

theorem Token.classified_atEnd (p : Position) : (Token.atEnd p).Classified [] [] := by
  refine .of_spells (fun k => TokenKind.spells_empty_iff) (fun _ _ hc => nomatch hc)
    (fun _ _ hc => nomatch hc) ⟨fun h => (nomatch h), ?_⟩ ?_
  · rintro (⟨c, hc, -⟩ | ⟨more, hmore, -⟩)
    · cases hc
    · cases hmore
  · rintro ⟨more, hmore, -⟩
    cases hmore

/-- Each token of a text stands at its place, belongs to the class that its
text is of, and reaches as far as its class allows. -/
theorem tokenize_classified {text : String} {us vs : List Token} {t : Token}
    (h : tokenize text = us ++ t :: vs) :
    ∃ before rest, text.toList = before ++ t.text.toList ++ rest ∧ t.position.Marks before ∧
      t.Classified rest vs := by
  obtain ⟨ts, q, hts⟩ := exists_lexes .start text.toList
  rw [hts.tokenize_eq] at h
  rcases List.eq_nil_or_concat vs with rfl | ⟨vs, last, rfl⟩
  · obtain ⟨rfl, hlast⟩ := List.append_inj' h rfl
    obtain rfl := (List.cons.inj hlast).1
    refine ⟨text.toList, [], by simp [Token.atEnd], ?_, Token.classified_atEnd q⟩
    rw [hts.ends]
    exact Position.marks_advanceBy _
  · rw [List.concat_eq_append, ← List.cons_append, ← List.append_assoc] at h
    obtain ⟨rfl, hlast⟩ := List.append_inj' h rfl
    obtain rfl := (List.cons.inj hlast).1
    obtain ⟨before, rest, htext, hposition, hsplits, hrest⟩ := hts.token_at rfl
    refine ⟨before, rest, htext, hposition ▸ Position.marks_advanceBy before,
      .of_spells (fun k hk => hsplits.kind_iff hk) (fun hword => ?_) hsplits.digits_end
        hsplits.invalid_iff fun hopen => ?_⟩
    · exact (hsplits.word_ends hword).head fun _ => id
    · obtain ⟨-, rfl⟩ := hopen.splits hsplits
      obtain rfl := hrest.of_nil
      exact ⟨rfl, q, rfl⟩

/-- A keyword, a name that begins with it, and a string whose second quote is
escaped, so that all from the first quote on is one invalid token. -/
theorem tokenize_classified_open :
    let text := "end ends \"a\\\""
    let keyword : Token := ⟨.kwEnd, "end", ⟨0, 1, 1⟩⟩
    let name : Token := ⟨.identifier, "ends", ⟨4, 1, 5⟩⟩
    let opened : Token := ⟨.invalid, "\"a\\\"", ⟨9, 1, 10⟩⟩
    let last : Token := .atEnd ⟨13, 1, 14⟩
    tokenize text = [keyword, name, opened, last] ∧
      (∃ before rest, text.toList = before ++ keyword.text.toList ++ rest ∧
        keyword.position.Marks before ∧ keyword.Classified rest [name, opened, last]) ∧
      (∃ before rest, text.toList = before ++ name.text.toList ++ rest ∧
        name.position.Marks before ∧ name.Classified rest [opened, last]) ∧
      ∃ before rest, text.toList = before ++ opened.text.toList ++ rest ∧
        opened.position.Marks before ∧ opened.Classified rest [last] := by
  intro text keyword name opened last
  have h : tokenize text = [keyword, name, opened, last] := by decide
  exact ⟨h, @tokenize_classified text [] [name, opened, last] keyword h,
    @tokenize_classified text [keyword] [opened, last] name h,
    @tokenize_classified text [keyword, name] [last] opened h⟩

end WorkflowScript
