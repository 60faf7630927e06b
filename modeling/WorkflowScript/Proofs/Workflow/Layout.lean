import WorkflowScript.Proofs.Token.Layout
import WorkflowScript.Proofs.Workflow.Rejection
import WorkflowScript.Proofs.Workflow.Relocation
import WorkflowScript.Proofs.Workflow.RoundTrip

/-!
# Layout does not matter

Two texts whose tokens have the same kinds and texts get the same answer
from the parser: the same tree up to positions, or errors that differ in the
position of the offending token only. A parser decides by kinds, so both
runs stop at tokens that match (`Entry.alike_at`); what it returns is
the tree of its tokens, and this one looks at nothing but their texts and
positions. Layout is one way to come to such texts (`layout_irrelevant`).
-/

namespace WorkflowScript

open WorkflowScript.Lexical WorkflowScript.Parser

/-! ## Cursors on matching tokens -/

section Matching

variable {σ τ : Type} [TokenSource σ] [TokenSource τ]

/-- Up to the end of the input both cursors are on tokens of the same kinds
and texts. -/
inductive Cursor.Matches : Cursor σ → Cursor τ → Prop
  | atEnd {c d} : c.current.kind = .endOfInput → d.current.content = c.current.content →
      Matches c d
  | more {c d} : c.current.kind ≠ .endOfInput → d.current.content = c.current.content →
      Matches c.advance d.advance → Matches c d

variable {c c' : Cursor σ} {d d' : Cursor τ} {ts us : List Token}

theorem Token.kind_eq_of_content {t u : Token} (h : u.content = t.content) : u.kind = t.kind :=
  congrArg Prod.fst h

theorem kinds_eq_of_contents (h : us.map Token.content = ts.map Token.content) :
    kinds us = kinds ts := by
  have hkinds := congrArg (List.map Prod.fst) h
  rwa [List.map_map, List.map_map] at hkinds

namespace Cursor.Matches

theorem current (h : c.Matches d) : d.current.content = c.current.content := by
  cases h with
  | atEnd _ hcur => exact hcur
  | more _ hcur _ => exact hcur

/-- What is consumed on one side can be consumed on the other. -/
theorem follow (h : c.Matches d) (hc : c.Consumes ts c') :
    ∃ us d', d.Consumes us d' ∧ us.map Token.content = ts.map Token.content ∧ c'.Matches d' := by
  induction ts generalizing c d with
  | nil =>
      obtain rfl := hc
      exact ⟨[], d, rfl, rfl, h⟩
  | cons t ts ih =>
      obtain ⟨rfl, hne, hrest⟩ := hc
      cases h with
      | atEnd hend _ => exact absurd hend hne
      | more _ hcur hadvance =>
          obtain ⟨us, d', hus, hcontent, hmatch⟩ := ih hadvance hrest
          have hne' : d.current.kind ≠ .endOfInput := by
            rwa [Token.kind_eq_of_content hcur]
          refine ⟨d.current :: us, d', ⟨rfl, hne', hus⟩, ?_, hmatch⟩
          rw [List.map_cons, List.map_cons, hcur, hcontent]

theorem of_consumes (hc : c.Consumes ts c') (hend : c'.current.kind = .endOfInput)
    (hd : d.Consumes us d') (hcur : d'.current.content = c'.current.content)
    (hcontent : us.map Token.content = ts.map Token.content) : c.Matches d := by
  induction ts generalizing c d us with
  | nil =>
      obtain rfl := List.map_eq_nil_iff.mp hcontent
      obtain rfl := hc
      obtain rfl := hd
      exact .atEnd hend hcur
  | cons t ts ih =>
      cases us with
      | nil => cases hcontent
      | cons u us =>
          obtain ⟨rfl, hne, hc⟩ := hc
          obtain ⟨rfl, -, hd⟩ := hd
          obtain ⟨hhead, htail⟩ := List.cons.inj hcontent
          exact .more hne hhead (ih hc hd htail)

end Cursor.Matches

end Matching

namespace Entry

/-! ## The same answer -/

/-- The same tree up to positions, or errors that expect the same at tokens
of the same kind and text. -/
def SameAnswer (e : Entry) : Except ParseError e.Tree → Except ParseError e.Tree → Prop
  | .ok t, .ok u => (e.fragment u).erasePositions = (e.fragment t).erasePositions
  | .error err, .error err' =>
    err'.expected = err.expected ∧ err'.token.content = err.token.content
  | _, _ => False

theorem erasePositions_fragment (e : Entry) (t : e.Tree) :
    (e.fragment t).erasePositions = e.fragment (e.mapPositions (fun _ => .start) t) := by
  cases e <;> rfl

theorem mapPosition_eq_of_contents {ts us : List Token} (p : Position)
    (h : us.map Token.content = ts.map Token.content) :
    us.map (Token.mapPosition fun _ => p) = ts.map (Token.mapPosition fun _ => p) := by
  have htokens := congrArg (List.map fun content => Token.mk content.1 content.2 p) h
  rwa [List.map_map, List.map_map] at htokens

/-- Sentences with the same words have the same trees up to positions. -/
theorem Derives.erasePositions_eq {e : Entry} {ts us : List Token} {t u : e.Tree}
    (h : e.Derives ts t) (h' : e.Derives us u)
    (hcontent : us.map Token.content = ts.map Token.content) :
    (e.fragment u).erasePositions = (e.fragment t).erasePositions := by
  rw [erasePositions_fragment, erasePositions_fragment,
    h'.mapPositions_eq _ h (mapPosition_eq_of_contents .start hcontent)]

section Runs

variable {σ τ : Type} [TokenSource σ] [TokenSource τ] {c : Cursor σ} {d : Cursor τ}

/-- On matching tokens the start symbol consumes matching tokens, stops in
front of matching tokens, and comes to the same verdict. -/
theorem alike_at (e : Entry) (h : c.Matches d) :
    let o := (e.production maxNesting) c
    let o' := (e.production maxNesting) d
    ∃ ts us, c.Consumes ts o.cursor ∧ d.Consumes us o'.cursor ∧
      us.map Token.content = ts.map Token.content ∧ o.cursor.Matches o'.cursor ∧
        SameVerdict anyValues o.result o'.result := by
  have hproductions : Alike (e.production maxNesting : Parser σ e.Tree)
      (e.production maxNesting : Parser τ e.Tree) := e.alike maxNesting
  obtain ⟨ts, hts, halike⟩ := hproductions c
  obtain ⟨us, d', hus, hcontent, hmatch⟩ := h.follow hts
  have hkind := Token.kind_eq_of_content hmatch.current
  obtain ⟨hcursor, hverdict⟩ := halike d d' ⟨⟨us, kinds_eq_of_contents hcontent, hus⟩, hkind⟩
  rw [← hcursor] at hus hmatch
  exact ⟨ts, us, hts, hus, hcontent, hmatch, hverdict⟩

theorem fails_of_matches {e : Entry} {c' : Cursor σ} {err : ParseError} (h : c.Matches d)
    (hf : (e.production maxNesting).Fails c err c') : ∃ err' d',
    (e.production maxNesting).Fails d err' d' ∧ err'.expected = err.expected ∧ c'.Matches d' := by
  obtain ⟨_, _, -, -, -, hmatch, hverdict⟩ := e.alike_at h
  obtain ⟨events, hc⟩ := hf
  rw [hc] at hmatch hverdict
  rcases hd : (e.production maxNesting) d with ⟨err' | u, events', d'⟩
  · rw [hd] at hmatch hverdict
    exact ⟨err', d', ⟨events', hd⟩, hverdict.symm, hmatch⟩
  · rw [hd] at hverdict
    exact hverdict.elim

theorem runs_of_matches {e : Entry} {c' : Cursor σ} {t : e.Tree} (h : c.Matches d)
    (hr : (e.production maxNesting).Runs c t c') : ∃ u d',
    (e.production maxNesting).Runs d u d' ∧ c'.Matches d' ∧
      (e.fragment u).erasePositions = (e.fragment t).erasePositions := by
  obtain ⟨ts, us, hts, hus, hcontent, hmatch, hverdict⟩ := e.alike_at h
  obtain ⟨events, hc⟩ := hr
  rw [hc] at hts hmatch hverdict
  rcases hd : (e.production maxNesting) d with ⟨err' | u, events', d'⟩
  · rw [hd] at hverdict
    exact hverdict.elim
  · rw [hd] at hus hmatch
    obtain ⟨ts', hts', hderives, -⟩ := (e.recognises maxNesting).runs trivial ⟨events, hc⟩
    obtain ⟨us', hus', hderives', -⟩ := (e.recognises maxNesting).runs trivial ⟨events', hd⟩
    obtain rfl := hts.tokens_unique hts'
    obtain rfl := hus.tokens_unique hus'
    exact ⟨u, d', ⟨events', hd⟩, hmatch, hderives.erasePositions_eq hderives' hcontent⟩

/-- The answer of the start symbol, if the input must end there. -/
def answer {e : Entry} (o : Outcome σ e.Tree) : Except ParseError e.Tree :=
  match o.result with
  | .error err => .error err
  | .ok t =>
    if o.cursor.current.kind = .endOfInput then .ok t
    else .error ⟨o.cursor.current, .kind .endOfInput⟩

theorem result_eq_answer (e : Entry) (c : Cursor σ) :
    (e.parser c).result = answer ((e.production maxNesting) c) := by
  rcases e.parser.runs_or_fails c with ⟨t, c', hr⟩ | ⟨err, c', hf⟩
  · obtain ⟨stop, hstop, hend⟩ := (runs_iff_reaches_end e).mp ⟨c', hr⟩
    obtain ⟨_, hstop⟩ := hstop
    rw [(runs_iff.mp hr).1, hstop]
    exact (if_pos hend).symm
  · rw [(fails_iff.mp hf).1]
    rcases fails_cases hf with ⟨_, hstop⟩ | ⟨t, ⟨_, hstop⟩, hne, rfl⟩
    · rw [hstop]
      rfl
    · rw [hstop]
      exact (if_neg hne).symm

theorem result_of_fails {e : Entry} {c' : Cursor σ} {err : ParseError}
    (h : (e.production maxNesting).Fails c err c') : (e.parser c).result = .error err := by
  obtain ⟨events, h⟩ := h
  rw [result_eq_answer, h]
  rfl

theorem result_of_runs {e : Entry} {c' : Cursor σ} {t : e.Tree}
    (h : (e.production maxNesting).Runs c t c') : (e.parser c).result =
      if c'.current.kind = .endOfInput then .ok t
      else .error ⟨c'.current, .kind .endOfInput⟩ := by
  obtain ⟨events, h⟩ := h
  rw [result_eq_answer, h]
  rfl

/-- On matching tokens the parser gives the same answer. -/
theorem sameAnswer_of_matches (e : Entry) (h : c.Matches d) :
    e.SameAnswer (e.parser c).result (e.parser d).result := by
  rcases (e.production maxNesting).runs_or_fails c with ⟨t, c', hr⟩ | ⟨err, c', hf⟩
  · obtain ⟨u, d', hr', hmatch, herase⟩ := runs_of_matches h hr
    have hkind := Token.kind_eq_of_content hmatch.current
    rw [result_of_runs hr, result_of_runs hr', hkind]
    by_cases hend : c'.current.kind = .endOfInput
    · rw [if_pos hend, if_pos hend]
      exact herase
    · rw [if_neg hend, if_neg hend]
      exact ⟨rfl, hmatch.current⟩
  · obtain ⟨err', d', hf', hexpected, hmatch⟩ := fails_of_matches h hf
    obtain ⟨_, _, htoken, -⟩ := (e.recognises maxNesting).fails trivial hf
    obtain ⟨_, _, htoken', -⟩ := (e.recognises maxNesting).fails trivial hf'
    rw [result_of_fails hf, result_of_fails hf']
    refine ⟨hexpected, ?_⟩
    rw [htoken, htoken', hmatch.current]

end Runs

/-! ## Respaced texts -/

/-- Texts that lex as tokens of the same kinds and texts get the same answer. -/
theorem sameAnswer_of_lexes (e : Entry) {s s' : String} {ts us : List Token} {p p' : Position}
    (h : Lexes .start s.toList ts p) (h' : Lexes .start s'.toList us p')
    (hcontent : us.map Token.content = ts.map Token.content) :
    e.SameAnswer (e.parseText s) (e.parseText s') := by
  obtain ⟨c, hc, hp⟩ := h.consumes
  obtain ⟨d, hd, hp'⟩ := h'.consumes
  have hend : c.current.kind = .endOfInput := by rw [hp]; rfl
  have hcur : d.current.content = c.current.content := by rw [hp, hp']; rfl
  rw [parseText_eq_result, parseText_eq_result]
  exact e.sameAnswer_of_matches (.of_consumes hc hend hd hcur hcontent)

end Entry

/-- Whatever stands between the tokens of a text, blanks and closed comments
can stand there instead, as long as tokens are kept apart by a blank: the
tokens keep their kinds and texts, and every parser gives the same answer. -/
theorem layout_irrelevant (s s' : String)
    (h : Respaces ((lexemes s).map Token.text) s'.toList) :
    (tokenize s').map Token.content = (tokenize s).map Token.content ∧
      ∀ e : Entry, e.SameAnswer (e.parseText s) (e.parseText s') := by
  obtain ⟨ts, p, hts⟩ := exists_lexes .start s.toList
  rw [hts.lexemes_eq] at h
  obtain ⟨us, p', hus, hcontent⟩ := hts.respace h .start
  refine ⟨?_, fun e => e.sameAnswer_of_lexes hts hus hcontent⟩
  rw [hts.tokenize_eq, hus.tokenize_eq, List.map_append, List.map_append, hcontent]
  rfl

/-- An assignment with a comment in front of it and a line feed in it. -/
theorem layout_irrelevant_assignment :
    (tokenize "// set\n a =\n 1").map Token.content = (tokenize "a=1 ").map Token.content ∧
      ∀ e : Entry, e.SameAnswer (e.parseText "a=1 ") (e.parseText "// set\n a =\n 1") := by
  have hset : IsLayout "// set\n ".toList :=
    @IsLayout.comment " set".toList _ (by decide) (.blank (by decide) .nil)
  have hblank : Separates " ".toList := ⟨.blank (by decide) .nil, ' ', rfl, by decide⟩
  have hfeed : Separates "\n ".toList :=
    ⟨.blank (by decide) (.blank (by decide) .nil), '\n', rfl, by decide⟩
  have hwords : Respaces ["a", "=", "1"] "// set\n a =\n 1".toList :=
    .some hset (.cons hblank (.cons hfeed .nil))
  exact layout_irrelevant "a=1 " "// set\n a =\n 1" hwords

end WorkflowScript
