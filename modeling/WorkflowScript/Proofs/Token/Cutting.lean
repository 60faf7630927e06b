import WorkflowScript.Proofs.Token.Lexing

/-!
# Texts that are cut off

The tokens of a text's beginning are tokens of the text, up to the last one:
a token that something stands behind stays the same when more is appended
(`Lexes.extend`). The last one may be a piece of another token, of a comment
even. If it is a word, it grows into a word that starts alike
(`Lexes.grow_word`).
-/

namespace WorkflowScript

open WorkflowScript.Lexical

/-- Trivia, or trivia and one token behind it up to the end. -/
inductive LastPiece : Position → List Char → List Token → Prop
  | trivia {p gap} : IsTrivia [] gap → LastPiece p gap []
  | token {p gap t} : IsTrivia t.text.toList gap → Splits t.kind t.text.toList [] →
      t.position = p.advanceBy gap → LastPiece p (gap ++ t.text.toList) [t]

/-- A last piece holds one token at most. -/
theorem LastPiece.getLast?_of_suffix {p : Position} {piece : List Char} {last vs : List Token}
    {v : Token} (h : LastPiece p piece last) (hvs : v :: vs <:+ last) (common : List Token) :
    (common ++ last).getLast? = some v := by
  cases h with
  | trivia _ => exact absurd (List.suffix_nil.mp hvs) (List.cons_ne_nil v vs)
  | @token gap t _ _ _ =>
      rw [List.getLast?_concat]
      rcases List.suffix_cons_iff.mp hvs with heq | hnil
      · rw [(List.cons.inj heq).1]
      · exact absurd (List.suffix_nil.mp hnil) (List.cons_ne_nil v vs)

/-- When `back` is appended, all tokens but the last one stay. -/
theorem Lexes.extend {p q : Position} {front : List Char} {ts : List Token}
    (h : Lexes p front ts q) (back : List Char) :
    ∃ common last r piece, ts = common ++ last ∧ LastPiece r piece last ∧
      ∀ us q', Lexes r (piece ++ back) us q' → Lexes p (front ++ back) (common ++ us) q' := by
  induction h with
  | @nil p gap hgap => exact ⟨[], [], p, gap, rfl, .trivia hgap, fun _ _ => id⟩
  | @cons p gap rest t ts q hgap hsplits hp hrest ih =>
      by_cases hnil : rest = []
      · subst hnil
        obtain rfl := hrest.of_nil
        rw [List.append_nil] at hgap ⊢
        exact ⟨[], [t], p, _, rfl, .token hgap hsplits hp, fun _ _ => id⟩
      · obtain ⟨common, last, r, piece, rfl, hpiece, hextend⟩ := ih
        refine ⟨t :: common, last, r, piece, rfl, hpiece, fun us q' hus => ?_⟩
        have hsplits' := hsplits.replace (.append hnil back) fun _ h => absurd h hnil
        rw [List.append_assoc, List.append_assoc]
        exact .cons (hgap.before hsplits.ne_nil) hsplits' hp (hextend us q' hus)

namespace Lexical

theorem exists_span (cs : List Char) :
    ∃ more rest, cs = more ++ rest ∧ more.all isNamePart ∧ Ends rest :=
  ⟨cs.takeWhile isNamePart, cs.dropWhile isNamePart, List.takeWhile_append_dropWhile.symm,
    List.all_takeWhile, .of_head (head_dropWhile isNamePart cs)⟩

theorem isWord_append {word : String} {more : List Char} (h : isWord word)
    (hmore : more.all isNamePart) : isWord (word ++ String.ofList more) := by
  unfold isWord at h ⊢
  rw [String.toList_append, String.toList_ofList]
  cases hword : word.toList with
  | nil =>
      rw [hword] at h
      cases h
  | cons c cs =>
      rw [hword] at h
      obtain ⟨hc, hcs⟩ := Bool.and_eq_true_iff.mp h
      simp only [List.cons_append, List.all_append, hc, hcs, hmore, Bool.and_self]

end Lexical

/-- A word at the end grows by the characters of a name that are appended. -/
theorem Lexes.grow_word {p q : Position} {gap back : List Char} {t : Token} {us : List Token}
    (hgap : IsTrivia t.text.toList gap) (hp : t.position = p.advanceBy gap) (hword : isWord t.text)
    (h : Lexes p (gap ++ t.text.toList ++ back) us q) :
    ∃ more us', us = ⟨.ofWord (t.text ++ String.ofList more), t.text ++ String.ofList more,
      t.position⟩ :: us' := by
  obtain ⟨more, rest, rfl, hmore, hends⟩ := exists_span back
  have hsplits := splits_word (isWord_append hword hmore) hends
  have htext : t.text.toList ++ (more ++ rest) =
      (t.text ++ String.ofList more).toList ++ rest := by
    simp
  have hne : t.text.toList ≠ [] := by
    intro hnil
    rw [isWord, hnil] at hword
    cases hword
  have hgap' : IsTrivia (t.text.toList ++ (more ++ rest)) gap := by
    rw [← List.append_nil t.text.toList] at hgap
    exact hgap.before hne
  rw [List.append_assoc, htext] at h
  rw [htext] at hgap'
  obtain ⟨us', q', hus'⟩ :=
    exists_lexes (t.position.advanceBy (t.text ++ String.ofList more).toList) rest
  have hlexes := Lexes.cons (t := ⟨.ofWord (t.text ++ String.ofList more),
    t.text ++ String.ofList more, t.position⟩) hgap' hsplits hp hus'
  exact ⟨more, us', (h.unique hlexes).1⟩

end WorkflowScript
