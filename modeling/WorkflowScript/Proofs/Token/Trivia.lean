import WorkflowScript.Proofs.Token.Spelling

/-!
# Blanks and comments

What the scanner skips in front of a token, as a predicate on the characters
(`IsTrivia`) that says where a comment ends. The scanner skips trivia and
nothing else: what it cuts off is trivia (`splitTrivia_trivia`), trivia in
front of a text is cut off together with what the text starts with
(`IsTrivia.split`), and behind it stands neither a blank nor a comment
(`splitTrivia_stops`). Whether characters are trivia depends on what follows
them only where a comment must end (`IsTrivia.replace`).
-/

namespace WorkflowScript.Lexical

/-! ## Trivia -/

/-- A line ends here, or the text does. -/
def EndsLine (cs : List Char) : Prop := cs = [] ∨ cs.head? = some '\n'

/-- Blanks and comments in front of `rest`. A comment runs up to a line
feed, which is not part of it, or to the end of the text. -/
inductive IsTrivia (rest : List Char) : List Char → Prop
  | nil : IsTrivia rest []
  | blank {c cs} : Text.isBlank c → IsTrivia rest cs → IsTrivia rest (c :: cs)
  | comment {body cs} : '\n' ∉ body → EndsLine (cs ++ rest) → IsTrivia rest cs →
      IsTrivia rest ('/' :: '/' :: body ++ cs)

/-- What is left of a comment, and the trivia behind it. -/
def IsCommentTail (rest skipped : List Char) : Prop :=
  ∃ body more, skipped = body ++ more ∧ '\n' ∉ body ∧ EndsLine (more ++ rest) ∧ IsTrivia rest more

/-- A comment that goes on with a slash has not ended before it. -/
theorem IsCommentTail.slash {rest skipped : List Char} (h : IsCommentTail rest skipped)
    (hhead : (skipped ++ rest).head? = some '/') : IsTrivia rest ('/' :: skipped) := by
  obtain ⟨body, more, rfl, hbody, hline, hmore⟩ := h
  cases body with
  | nil =>
      rcases hline with hnil | hfeed
      · simp [hnil] at hhead
      · simp [hfeed] at hhead
  | cons c body =>
      obtain rfl : c = '/' := by simpa using hhead
      exact .comment (fun hfeed => hbody (List.mem_cons_of_mem _ hfeed)) hline hmore

theorem splitTrivia_trivia (cs : List Char) :
    IsTrivia (splitTrivia .blank cs).2 (splitTrivia .blank cs).1 ∧
      IsCommentTail (splitTrivia .comment cs).2 (splitTrivia .comment cs).1 := by
  induction cs with
  | nil => exact ⟨.nil, [], [], rfl, List.not_mem_nil, .inl rfl, .nil⟩
  | cons c cs ih =>
      obtain ⟨hblank, hcomment⟩ := ih
      constructor
      · rw [splitTrivia]
        split
        next hc => exact .blank hc hblank
        next =>
          split
          next hc =>
              obtain ⟨rfl, hslash⟩ := hc
              refine hcomment.slash ?_
              rwa [splitTrivia_append]
          next => exact .nil
      · rw [splitTrivia]
        by_cases hc : c = '\n'
        · rw [if_pos hc]
          subst hc
          exact ⟨[], _, rfl, List.not_mem_nil, .inr rfl, .blank (by decide) hblank⟩
        · rw [if_neg hc]
          obtain ⟨body, more, hskipped, hbody, hline, hmore⟩ := hcomment
          refine ⟨c :: body, more, ?_, ?_, hline, hmore⟩
          · simp [hskipped]
          · simpa [hbody] using Ne.symm hc

/-! ## Trivia in front of a text -/

theorem splitTrivia_comment_of_endsLine {cs : List Char} (h : EndsLine cs) :
    splitTrivia .comment cs = splitTrivia .blank cs := by
  rcases h with rfl | hfeed
  · rfl
  · cases cs with
    | nil => cases hfeed
    | cons c cs =>
        obtain rfl : c = '\n' := by simpa using hfeed
        have hblank : Text.isBlank '\n' := by decide
        simp [splitTrivia, hblank]

theorem splitTrivia_comment {body cs : List Char} (hbody : '\n' ∉ body) (h : EndsLine cs) :
    splitTrivia .comment (body ++ cs) =
      (body ++ (splitTrivia .blank cs).1, (splitTrivia .blank cs).2) := by
  induction body with
  | nil => exact splitTrivia_comment_of_endsLine h
  | cons c body ih =>
      obtain ⟨hc, hbody⟩ := not_or.mp (mt List.mem_cons.mpr hbody)
      rw [List.cons_append, splitTrivia, if_neg (Ne.symm hc), ih hbody]
      rfl

/-- Trivia is skipped in front of whatever follows it. -/
theorem IsTrivia.split {rest gap : List Char} (h : IsTrivia rest gap) :
    splitTrivia .blank (gap ++ rest) =
      (gap ++ (splitTrivia .blank rest).1, (splitTrivia .blank rest).2) := by
  induction h with
  | nil => rfl
  | blank hc _ ih =>
      rw [List.cons_append, splitTrivia, if_pos hc, ih]
      rfl
  | @comment body cs hbody hline _ ih =>
      have hslash : '\n' ∉ '/' :: body := by simpa using hbody
      have htail := splitTrivia_comment hslash hline
      rw [ih] at htail
      simp only [List.cons_append, List.append_assoc] at htail ⊢
      rw [splitTrivia, if_neg (by decide), if_pos ⟨rfl, rfl⟩, htail]

/-- Where trivia ends, no trivia begins. -/
theorem splitTrivia_stops {cs rest : List Char} {c : Char} {mode : Trivia}
    (h : (splitTrivia mode cs).2 = c :: rest) :
    Text.isBlank c = false ∧ ¬ (c = '/' ∧ rest.head? = some '/') := by
  induction cs generalizing mode with
  | nil => cases mode <;> cases h
  | cons d cs ih =>
      cases mode with
      | comment => exact ih h
      | blank =>
          rw [splitTrivia] at h
          split at h
          next => exact ih h
          next hblank =>
            split at h
            next => exact ih h
            next hcomment =>
                cases h
                exact ⟨by simpa using hblank, hcomment⟩

/-- What ends a line in front of `rest` ends one in front of `rest'`, if that
starts alike or with a line feed. -/
theorem EndsLine.replace {cs rest rest' : List Char} (h : EndsLine (cs ++ rest))
    (hrest : EndsLine rest → EndsLine rest') : EndsLine (cs ++ rest') := by
  cases cs with
  | nil => exact hrest h
  | cons c cs => exact .inr (h.resolve_left (List.cons_ne_nil _ _))

theorem IsTrivia.replace {rest rest' gap : List Char} (h : IsTrivia rest gap)
    (hrest : EndsLine rest → EndsLine rest') : IsTrivia rest' gap := by
  induction h with
  | nil => exact .nil
  | blank hc _ ih => exact .blank hc ih
  | comment hbody hline _ ih => exact .comment hbody (hline.replace hrest) ih

/-- In front of a token trivia stays trivia, whatever stands behind the token. -/
theorem IsTrivia.before {text rest rest' gap : List Char} (h : IsTrivia (text ++ rest) gap)
    (htext : text ≠ []) : IsTrivia (text ++ rest') gap := by
  cases text with
  | nil => exact absurd rfl htext
  | cons c cs => exact h.replace fun hline => .inr (hline.resolve_left (List.cons_ne_nil _ _))

theorem IsTrivia.append {rest gap more : List Char} (h : IsTrivia (more ++ rest) gap)
    (hmore : IsTrivia rest more) : IsTrivia rest (gap ++ more) := by
  induction h with
  | nil => exact hmore
  | blank hc _ ih => exact .blank hc ih
  | @comment body cs hbody hline _ ih =>
      have hline : EndsLine (cs ++ more ++ rest) := by rwa [List.append_assoc]
      have hcomment := IsTrivia.comment hbody hline ih
      simpa only [List.cons_append, List.append_assoc] using hcomment

end WorkflowScript.Lexical
