import WorkflowScript.Token.Scanner

/-!
# Spelling of tokens

Which texts a token of each kind can have. A keyword or punctuation has its
one spelling; a name, an integer and a string have a shape. The scanner
keeps to this in both directions: a token it cuts off is spelled as its
kind demands, and a text that is so spelled is cut off as one token of that
kind, if what follows does not run into it.
-/

namespace WorkflowScript

namespace Lexical

/-! ## Shapes -/

/-- A letter or an underscore, then letters, digits and underscores. -/
def isWord (text : String) : Bool :=
  match text.toList with
  | [] => false
  | c :: cs => isNameStart c && cs.all isNamePart

/-- A word that is no keyword. -/
def isName (text : String) : Bool := isWord text && (TokenKind.keyword? text).isNone

/-- One or more digits. -/
def isDigits (text : String) : Bool := !text.toList.isEmpty && text.toList.all isDigit

/-- A quote, and behind it characters the last of which is the quote that
closes the string. -/
def isQuoted (text : String) : Bool :=
  match text.toList with
  | [] => false
  | c :: cs => c = '"' && closeString false cs = some (cs, [])

end Lexical

open Lexical

/-- Whether a token of the kind can be written so. -/
def TokenKind.spells (k : TokenKind) (text : String) : Bool :=
  match k with
  | .identifier => isName text
  | .integer => isDigits text
  | .string => isQuoted text
  | .invalid => true
  | .endOfInput => text = ""
  | k => k.spelling? = some text

def Token.WellSpelled (t : Token) : Prop := t.kind.spells t.text

theorem Token.WellSpelled.isName {t : Token} (h : t.WellSpelled) (hk : t.kind = .identifier) :
    Lexical.isName t.text := by
  rwa [Token.WellSpelled, hk] at h

namespace Lexical

/-! ## Character classes -/

theorem isNamePart_of_isNameStart {c : Char} (h : isNameStart c) : isNamePart c := by
  simp only [isNameStart, isNamePart, Bool.or_eq_true] at h ⊢
  rcases h with h | h
  · exact .inl (.inl h)
  · exact .inr h

theorem isNamePart_of_isDigit {c : Char} (h : isDigit c) : isNamePart c := by
  simp [isNamePart, h]

/-- Characters that a name may contain are ASCII letters, digits and the
underscore, seen as numbers. -/
theorem toNat_of_isNamePart {c : Char} (h : isNamePart c) : 48 ≤ c.toNat ∧ c.toNat ≤ 122 := by
  simp only [isNamePart, isLetter, isDigit, Bool.or_eq_true, Bool.and_eq_true,
    decide_eq_true_eq] at h
  rcases h with ((h | h) | h) | rfl
  · exact ⟨Nat.le_trans (by decide) h.1, h.2⟩
  · exact ⟨Nat.le_trans (by decide) h.1, Nat.le_trans h.2 (by decide)⟩
  · exact ⟨h.1, Nat.le_trans h.2 (by decide)⟩
  · decide

theorem isBlank_of_isNamePart {c : Char} (h : isNamePart c) : Text.isBlank c = false := by
  have hc := toNat_of_isNamePart h
  simp [Text.isBlank, Text.CodeRanges.covers, Text.blankRanges]
  omega

/-- No name starts with a digit. -/
theorem isNameStart_of_isDigit {c : Char} (h : isDigit c) : isNameStart c = false := by
  simp only [isDigit, Bool.and_eq_true, decide_eq_true_eq] at h
  have hdigit : c.toNat ≤ 57 := h.2
  have hstart : isNameStart c → 65 ≤ c.toNat := by
    simp only [isNameStart, isLetter, Bool.or_eq_true, Bool.and_eq_true, decide_eq_true_eq]
    rintro ((h | h) | rfl)
    · exact Nat.le_trans (by decide) h.1
    · exact h.1
    · decide
  by_cases hc : isNameStart c
  · have := hstart hc
    omega
  · simpa using hc

/-! ## Keywords -/

theorem ofWord_eq_identifier_or_mem (word : String) :
    TokenKind.ofWord word = .identifier ∧ TokenKind.keyword? word = none ∨
      TokenKind.ofWord word ∈ TokenKind.keywords ∧
        (TokenKind.ofWord word).spelling? = some word := by
  unfold TokenKind.ofWord
  cases h : TokenKind.keyword? word with
  | none => exact .inl ⟨rfl, rfl⟩
  | some k =>
      refine .inr ⟨List.mem_of_find?_eq_some h, ?_⟩
      have := List.find?_some h
      simpa using this

theorem ofChar?_mem {c : Char} {k : TokenKind} (h : TokenKind.ofChar? c = some k) :
    k ∈ TokenKind.punctuation ∧ k.spelling? = some (String.singleton c) := by
  refine ⟨List.mem_of_find?_eq_some h, ?_⟩
  have := List.find?_some h
  simpa using this

theorem spells_of_spelling? {k : TokenKind} {text : String} (h : k.spelling? = some text) :
    k.spells text := by
  cases k <;> first | simp [TokenKind.spelling?] at h; done | simp [TokenKind.spells, h]

/-! ## Tokens that are cut off -/

theorem spells_word {c : Char} (cs : List Char) (hc : isNameStart c) :
    (TokenKind.ofWord (String.ofList (c :: cs.takeWhile isNamePart))).spells
      (String.ofList (c :: cs.takeWhile isNamePart)) := by
  rcases ofWord_eq_identifier_or_mem (String.ofList (c :: cs.takeWhile isNamePart)) with
    ⟨hk, hnone⟩ | ⟨-, hspelling⟩
  · have hparts : (cs.takeWhile isNamePart).all isNamePart := List.all_takeWhile
    simp only [hk, TokenKind.spells, isName, isWord, String.toList_ofList, hc, hparts, hnone]
    rfl
  · exact spells_of_spelling? hspelling

/-- Nothing is left of a string behind the quote that closes it. -/
theorem closeString_self {escaped : Bool} {cs body rest : List Char}
    (h : closeString escaped cs = some (body, rest)) :
    closeString escaped body = some (body, []) := by
  induction cs generalizing escaped body with
  | nil => cases escaped <;> cases h
  | cons c cs ih =>
      cases escaped with
      | true =>
          obtain ⟨⟨b, r⟩, hb, he⟩ := Option.map_eq_some_iff.mp h
          cases he
          simp [closeString, ih hb]
      | false =>
          rw [closeString] at h
          split at h
          · cases h
            simp_all [closeString]
          · obtain ⟨⟨b, r⟩, hb, he⟩ := Option.map_eq_some_iff.mp h
            cases he
            simp_all [closeString, ih hb]

/-- A token is spelled as its kind demands. -/
theorem spells_splitLexeme (c : Char) (cs : List Char) :
    (splitLexeme c cs).kind.spells (String.ofList (splitLexeme c cs).text) := by
  unfold splitLexeme
  split
  next hc => exact spells_word cs hc
  split
  next hc => simp [TokenKind.spells, isDigits, hc]
  split
  next hc =>
      split
      next h => simp [TokenKind.spells, isQuoted, hc, closeString_self h]
      next => rfl
  next =>
      cases h : TokenKind.ofChar? c with
      | none => rfl
      | some k => exact spells_of_spelling? (ofChar?_mem h).2

/-! ## Texts that are cut off as one token -/

/-- No word or number goes on here. -/
def Ends : List Char → Prop
  | [] => True
  | c :: _ => isNamePart c = false

/-- No word, number or comment goes on here. -/
def isApart : List Char → Bool
  | [] => true
  | c :: _ => !isNamePart c && c != '/'

theorem isApart_of_isBlank {c : Char} (h : Text.isBlank c) (cs : List Char) :
    isApart (c :: cs) := by
  have hpart : isNamePart c = false := by
    cases hc : isNamePart c with
    | false => rfl
    | true => simp [isBlank_of_isNamePart hc] at h
  have hslash : c ≠ '/' := by
    intro hc
    subst hc
    revert h
    decide
  simp [isApart, hpart, hslash]

theorem ends_of_isApart {rest : List Char} (h : isApart rest) : Ends rest := by
  cases rest with
  | nil => trivial
  | cons c rest =>
      obtain ⟨hpart, -⟩ := Bool.and_eq_true_iff.mp h
      show isNamePart c = false
      simpa using hpart

theorem Ends.head {rest : List Char} (h : Ends rest) {p : Char → Bool}
    (hp : ∀ c, p c → isNamePart c) : ∀ d ∈ rest.head?, p d = false := by
  intro d hd
  cases rest with
  | nil => cases hd
  | cons c rest =>
      obtain rfl : c = d := by simpa using hd
      cases hpc : p c with
      | false => rfl
      | true =>
          have hpart := hp c hpc
          rw [show isNamePart c = false from h] at hpart
          cases hpart

theorem Ends.of_head {rest : List Char} (h : ∀ d ∈ rest.head?, isNamePart d = false) :
    Ends rest := by
  cases rest with
  | nil => trivial
  | cons c rest => exact h c rfl

/-- Where the characters of a class end, no other one of it follows. -/
theorem head_dropWhile (p : Char → Bool) (cs : List Char) :
    ∀ d ∈ (cs.dropWhile p).head?, p d = false := by
  intro d hd
  have hstop := List.head?_dropWhile_not p cs
  rw [Option.mem_def.mp hd] at hstop
  simpa using hstop

/-- Characters of a class are cut off as a whole in front of one that is
outside of it. -/
theorem span_of_head {p : Char → Bool} {cs rest : List Char} (hcs : cs.all p)
    (hrest : ∀ d ∈ rest.head?, p d = false) :
    (cs ++ rest).takeWhile p = cs ∧ (cs ++ rest).dropWhile p = rest := by
  have hall : ∀ c ∈ cs, p c := List.all_eq_true.mp hcs
  have hnone : rest.takeWhile p = [] ∧ rest.dropWhile p = rest := by
    cases rest with
    | nil => exact ⟨rfl, rfl⟩
    | cons d rest =>
        have hd : p d = false := hrest d rfl
        simp [hd]
  rw [List.takeWhile_append_of_pos hall, List.dropWhile_append_of_pos hall, hnone.1, hnone.2,
    List.append_nil]
  exact ⟨rfl, rfl⟩

/-- Behind the characters of a class comes nothing more of it. -/
theorem Ends.span {cs rest : List Char} (h : Ends rest) {p : Char → Bool}
    (hp : ∀ c, p c → isNamePart c) (hcs : cs.all p) :
    (cs ++ rest).takeWhile p = cs ∧ (cs ++ rest).dropWhile p = rest :=
  span_of_head hcs (h.head hp)

/-- The text is cut off as one token of the kind in front of `rest`. -/
def Splits (k : TokenKind) (text rest : List Char) : Prop :=
  ∃ c cs, text = c :: cs ∧ Text.isBlank c = false ∧ ¬ (c = '/' ∧ (cs ++ rest).head? = some '/') ∧
    splitLexeme c (cs ++ rest) = ⟨k, c :: cs, rest⟩

theorem Splits.spells {k : TokenKind} {text rest : List Char} (h : Splits k text rest) :
    k.spells (String.ofList text) := by
  obtain ⟨c, cs, rfl, -, -, hsplit⟩ := h
  have hspells := spells_splitLexeme c (cs ++ rest)
  rwa [hsplit] at hspells

/-- What starts with a character of a name is no trivia. -/
theorem Splits.ofNamePart {k : TokenKind} {c : Char} {cs rest : List Char} (hc : isNamePart c)
    (h : splitLexeme c (cs ++ rest) = ⟨k, c :: cs, rest⟩) : Splits k (c :: cs) rest := by
  refine ⟨c, cs, rfl, isBlank_of_isNamePart hc, ?_, h⟩
  rintro ⟨rfl, -⟩
  revert hc
  decide

theorem splits_word {text : String} {rest : List Char} (h : isWord text) (hrest : Ends rest) :
    Splits (.ofWord text) text.toList rest := by
  unfold isWord at h
  split at h
  next => cases h
  next c cs htext =>
      obtain ⟨hc, hcs⟩ := Bool.and_eq_true_iff.mp h
      obtain ⟨htake, hdrop⟩ := hrest.span (fun _ => id) hcs
      rw [htext]
      refine .ofNamePart (isNamePart_of_isNameStart hc) ?_
      rw [splitLexeme, if_pos hc, htake, hdrop]
      simp only [← htext, String.ofList_toList]

theorem splits_digits {text : String} {rest : List Char} (h : isDigits text) (hrest : Ends rest) :
    Splits .integer text.toList rest := by
  obtain ⟨hne, hall⟩ := Bool.and_eq_true_iff.mp h
  cases htext : text.toList with
  | nil => simp [htext] at hne
  | cons c cs =>
      rw [htext] at hall
      obtain ⟨hc, hcs⟩ := Bool.and_eq_true_iff.mp hall
      obtain ⟨htake, hdrop⟩ := hrest.span (fun _ => isNamePart_of_isDigit) hcs
      refine .ofNamePart (isNamePart_of_isDigit hc) ?_
      rw [splitLexeme, if_neg (by simp [isNameStart_of_isDigit hc]), if_pos hc, htake, hdrop]

/-- Whatever stands behind a closed string is not looked at. -/
theorem closeString_append_right {escaped : Bool} {cs body rest : List Char}
    (h : closeString escaped cs = some (body, rest)) (more : List Char) :
    closeString escaped (cs ++ more) = some (body, rest ++ more) := by
  induction cs generalizing escaped body with
  | nil => cases escaped <;> cases h
  | cons c cs ih =>
      cases escaped with
      | true =>
          obtain ⟨⟨b, r⟩, hb, he⟩ := Option.map_eq_some_iff.mp h
          cases he
          simp [closeString, ih hb]
      | false =>
          rw [closeString] at h
          split at h
          · cases h
            simp_all [closeString]
          · obtain ⟨⟨b, r⟩, hb, he⟩ := Option.map_eq_some_iff.mp h
            cases he
            simp_all [closeString, ih hb]

theorem splits_quoted {text : String} (h : isQuoted text) (rest : List Char) :
    Splits .string text.toList rest := by
  unfold isQuoted at h
  split at h
  next => cases h
  next c cs htext =>
      obtain ⟨hc, hcs⟩ := Bool.and_eq_true_iff.mp h
      obtain rfl := of_decide_eq_true hc
      have hclose := closeString_append_right (of_decide_eq_true hcs) rest
      rw [htext]
      refine ⟨'"', cs, rfl, by decide, by simp, ?_⟩
      simp [splitLexeme, hclose, isNameStart, isLetter, isDigit]

theorem splits_keyword {k : TokenKind} {text : String} {rest : List Char}
    (hk : k ∈ TokenKind.keywords) (h : k.spelling? = some text) (hrest : Ends rest) :
    Splits k text.toList rest := by
  have hword : isWord text ∧ TokenKind.ofWord text = k := by
    cases k <;> first | exact absurd hk (by decide) | cases h; decide
  have := splits_word hword.1 hrest
  rwa [hword.2] at this

/-- Punctuation is one character of a class of its own. -/
theorem punctuation_char {k : TokenKind} {text : String} (hk : k ∈ TokenKind.punctuation)
    (h : k.spelling? = some text) :
    ∃ c, text.toList = [c] ∧ Text.isBlank c = false ∧ isNameStart c = false ∧
      isDigit c = false ∧ c ≠ '"' ∧ TokenKind.ofChar? c = some k ∧ (c = '/' → k = .slash) := by
  cases k <;> first | exact absurd hk (by decide) | cases h; exact ⟨_, rfl, by decide⟩

/-- Punctuation needs nothing of what follows, but for the slash. -/
theorem splits_punctuation {k : TokenKind} {text : String} {rest : List Char}
    (hk : k ∈ TokenKind.punctuation) (h : k.spelling? = some text)
    (hrest : k = .slash → rest.head? ≠ some '/') : Splits k text.toList rest := by
  obtain ⟨c, htext, hblank, hstart, hdigit, hquote, hc, hslash⟩ := punctuation_char hk h
  rw [htext]
  refine ⟨c, [], rfl, hblank, fun hcomment => hrest (hslash hcomment.1) hcomment.2, ?_⟩
  simp [splitLexeme, hstart, hdigit, hquote, hc]

/-- A text that is spelled as a kind demands is one token of that kind. -/
theorem splits_of_spells {k : TokenKind} {text : String} {rest : List Char} (h : k.spells text)
    (hinvalid : k ≠ .invalid) (hend : k ≠ .endOfInput) (hrest : isApart rest) :
    Splits k text.toList rest := by
  have hends := ends_of_isApart hrest
  have hslash : rest.head? ≠ some '/' := by
    cases rest with
    | nil => simp
    | cons c rest =>
        obtain ⟨-, hslash⟩ := Bool.and_eq_true_iff.mp hrest
        simpa using hslash
  by_cases hword : k ∈ TokenKind.keywords
  · refine splits_keyword hword ?_ hends
    cases k <;> first | exact absurd hword (by decide) | simpa [TokenKind.spells] using h
  by_cases hsign : k ∈ TokenKind.punctuation
  · refine splits_punctuation hsign ?_ fun _ => hslash
    cases k <;> first | exact absurd hsign (by decide) | simpa [TokenKind.spells] using h
  cases k with
  | identifier =>
      obtain ⟨hword, hkeyword⟩ := Bool.and_eq_true_iff.mp h
      have hk : TokenKind.ofWord text = .identifier := by
        simp [TokenKind.ofWord, Option.isNone_iff_eq_none.mp hkeyword]
      exact hk ▸ splits_word hword hends
  | integer => exact splits_digits h hends
  | string => exact splits_quoted h rest
  | invalid => exact absurd rfl hinvalid
  | endOfInput => exact absurd rfl hend
  | _ => first | exact absurd (by decide) hword | exact absurd (by decide) hsign

/-! ## Another text behind a token -/

/-- `rest'` may stand behind a token in place of `rest`: it starts alike, or
apart from every token. -/
def Replaces (rest' rest : List Char) : Prop :=
  isApart rest' ∨ rest ≠ [] ∧ rest'.head? = rest.head?

theorem Replaces.append {rest : List Char} (h : rest ≠ []) (more : List Char) :
    Replaces (rest ++ more) rest := by
  cases rest with
  | nil => exact absurd rfl h
  | cons c rest => exact .inr ⟨h, rfl⟩

theorem Replaces.head {rest' rest : List Char} (h : Replaces rest' rest) {p : Char → Bool}
    (hp : ∀ c, p c → isNamePart c) (hrest : ∀ d ∈ rest.head?, p d = false) :
    ∀ d ∈ rest'.head?, p d = false := by
  rcases h with hapart | ⟨-, hhead⟩
  · exact (ends_of_isApart hapart).head hp
  · rwa [hhead]

/-- Where a class ends in front of `rest`, it ends in front of what replaces
`rest`. -/
theorem Replaces.span {rest' rest cs : List Char} (h : Replaces rest' rest) {p : Char → Bool}
    (hp : ∀ c, p c → isNamePart c) (htake : (cs ++ rest).takeWhile p = cs)
    (hdrop : (cs ++ rest).dropWhile p = rest) :
    (cs ++ rest').takeWhile p = cs ∧ (cs ++ rest').dropWhile p = rest' := by
  have hcs : cs.all p := by
    rw [← htake]
    exact List.all_takeWhile
  have hrest := head_dropWhile p (cs ++ rest)
  rw [hdrop] at hrest
  exact span_of_head hcs (h.head hp hrest)

/-- A slash that opens no comment opens none in front of what replaces its
rest. -/
theorem Replaces.no_comment {rest' rest cs : List Char} (h : Replaces rest' rest)
    (hcomment : (cs ++ rest).head? ≠ some '/') : (cs ++ rest').head? ≠ some '/' := by
  cases cs with
  | cons d cs => exact hcomment
  | nil =>
      rcases h with hapart | ⟨-, hhead⟩
      · intro hslash
        cases rest' with
        | nil => cases hslash
        | cons d rest' =>
            obtain rfl : d = '/' := by simpa using hslash
            simp [isApart] at hapart
      · rwa [List.nil_append, hhead]

theorem Replaces.splitLexeme {k : TokenKind} {c : Char} {cs rest rest' : List Char}
    (hrest : Replaces rest' rest) (hopen : k = .invalid → rest = [] → rest' = [])
    (h : splitLexeme c (cs ++ rest) = ⟨k, c :: cs, rest⟩) :
    splitLexeme c (cs ++ rest') = ⟨k, c :: cs, rest'⟩ := by
  unfold Lexical.splitLexeme at h ⊢
  split at h
  next hc =>
      injection h with hk htext hdrop
      obtain ⟨htake', hdrop'⟩ := hrest.span (fun _ => id) (List.cons.inj htext).2 hdrop
      rw [if_pos hc]
      simp only [htake', hdrop', ← hk, htext]
  next hc =>
      rw [if_neg hc]
      split at h
      next hdigit =>
          injection h with hk htext hdrop
          obtain ⟨htake', hdrop'⟩ :=
            hrest.span (fun _ => isNamePart_of_isDigit) (List.cons.inj htext).2 hdrop
          rw [if_pos hdigit, htake', hdrop', hk]
      next hdigit =>
          rw [if_neg hdigit]
          split at h
          next hquote =>
              rw [if_pos hquote]
              split at h
              next body tail hclose =>
                  injection h with hk htext _
                  obtain rfl := (List.cons.inj htext).2
                  rw [closeString_append_right (closeString_self hclose) rest']
                  simp [hk]
              next hclose =>
                  -- Nothing closes the string, so nothing stands behind it.
                  injection h with hk htext hnil
                  obtain rfl := hopen hk.symm hnil.symm
                  rw [← hnil] at hclose
                  rw [hclose]
                  simp [hk]
          next hquote =>
              injection h with hk htext _
              obtain rfl : cs = [] := by simpa using (List.cons.inj htext).2.symm
              rw [if_neg hquote]
              simp [hk]

/-- Of what stands behind a token the scanner has looked at one character,
unless the token is a string that nothing closes. -/
theorem Splits.replace {k : TokenKind} {text rest rest' : List Char} (h : Splits k text rest)
    (hrest : Replaces rest' rest) (hopen : k = .invalid → rest = [] → rest' = []) :
    Splits k text rest' := by
  obtain ⟨c, cs, rfl, hblank, hcomment, hsplit⟩ := h
  refine ⟨c, cs, rfl, hblank, ?_, hrest.splitLexeme hopen hsplit⟩
  rintro ⟨hc, hslash⟩
  exact hrest.no_comment (fun h => hcomment ⟨hc, h⟩) hslash

end Lexical

end WorkflowScript
