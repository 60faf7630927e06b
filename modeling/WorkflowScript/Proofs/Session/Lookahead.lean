import WorkflowScript.Grammar.Tracing
import WorkflowScript.Proofs.Session.Counter
import WorkflowScript.Proofs.Session.Sentences
import WorkflowScript.Proofs.Workflow.Skeletons

/-!
# Calls decide by kinds

A call of a production looks at the kinds of the tokens that it consumes and
at the kind of the next one, and at nothing else. So all sources that begin
with tokens of these kinds are treated alike: the call stops in front of the
same token, with a tree or with the same expectation, and has pulled no token
behind the one at which it stops (`decides_by_kinds`).

The trees differ in their labels only. Which token a label comes from can be
told from the kinds alone: the tree of tokens that bear their numbers as
labels shows it (`Outline.ofNumbered`). With the tokens such an outline leaves
nothing of the tree open (`Outline.Fits.unique`).
-/

namespace WorkflowScript

open WorkflowScript.Grammar WorkflowScript.Parser
open TokenSource (next behind pull)

variable {σ τ : Type} [TokenSource σ] [TokenSource τ]

theorem kind_ne_of_kinds {k : TokenKind} {ts us : List Token} (h : kinds us = kinds ts)
    (hts : ∀ t ∈ ts, t.kind ≠ k) : ∀ u ∈ us, u.kind ≠ k := by
  intro u hu
  have hmem : u.kind ∈ kinds ts := h ▸ List.mem_map_of_mem hu
  obtain ⟨t, ht, hkind⟩ := List.mem_map.mp hmem
  exact hkind ▸ hts t ht

/-! ## Outlines of trees -/

/-- What a label is taken from, by the index of the token. -/
inductive Origin where
  | textOf (index : Nat)
  | placeOf (index : Nat)
deriving Repr, DecidableEq

/-- The label, if there are tokens enough. -/
def Origin.label? (ts : List Token) : Origin → Option Label
  | textOf index => ts[index]?.map fun t => .word t.text
  | placeOf index => ts[index]?.map fun t => .place t.position

/-- A tree without its labels, and where each of them is taken from. -/
structure Outline where
  skeleton : Fragment
  origins : List Origin

namespace Outline

/-- The tree has this outline over the tokens `ts`. -/
structure Fits (o : Outline) (ts : List Token) (t : Fragment) : Prop where
  skeleton : t.skeleton = o.skeleton
  labels : t.labels.map some = o.origins.map (Origin.label? ts)

/-- An outline and the tokens leave nothing of the tree open. -/
theorem Fits.unique {o : Outline} {ts : List Token} {t u : Fragment} (ht : o.Fits ts t)
    (hu : o.Fits ts u) : t = u :=
  Fragment.eq_of_labels (ht.skeleton.trans hu.skeleton.symm)
    ((List.map_inj_right fun _ _ => Option.some.inj).mp (ht.labels.trans hu.labels.symm))

end Outline

/-! ## Numbered tokens -/

/-- Tokens of these kinds that bear their numbers: as the length of the text,
and as the offset of the position. -/
def numbered (ks : List TokenKind) : List Token :=
  ks.mapIdx fun i k => ⟨k, String.ofList (List.replicate i '#'), ⟨i, 1, 1⟩⟩

/-- The text of the token with the number that `text` bears. -/
def textNumbered (ts : List Token) (text : String) : String :=
  (ts.getD text.length default).text

def placeNumbered (ts : List Token) (position : Position) : Position :=
  (ts.getD position.offset default).position

/-- The origin whose number the label bears. -/
def Label.origin : Label → Origin
  | word text => .textOf text.length
  | place position => .placeOf position.offset

theorem kinds_numbered (ks : List TokenKind) : kinds (numbered ks) = ks := by
  refine List.ext_getElem (by simp [numbered]) fun i hi hi' => ?_
  simp [numbered]

theorem lt_of_mem_numbered {ks : List TokenKind} {x : Token} (hx : x ∈ numbered ks) :
    x.text.length < ks.length ∧ x.position.offset < ks.length := by
  obtain ⟨i, hi, rfl⟩ := List.mem_mapIdx.mp hx
  exact ⟨by simpa using hi, hi⟩

theorem relabel_numbered (ts : List Token) :
    (numbered (kinds ts)).map (Token.relabel (textNumbered ts) (placeNumbered ts)) = ts := by
  refine List.ext_getElem (by simp [numbered]) fun i hi hi' => ?_
  simp [numbered, Token.relabel, textNumbered, placeNumbered, hi']

/-- The outline that the tree of numbered tokens shows. -/
def Outline.ofNumbered (t : Fragment) : Outline := ⟨t.skeleton, t.labels.map Label.origin⟩

namespace Production.Derives

variable {p : Production} {ts : List Token} {t u : Fragment}

theorem label?_origin (h : p.Derives (numbered (kinds ts)) t) {l : Label} (hl : l ∈ t.labels) :
    l.origin.label? ts = some (l.map (textNumbered ts) (placeNumbered ts)) := by
  cases l with
  | word text =>
      obtain ⟨x, hx, rfl⟩ := List.mem_map.mp (h.word_mem hl)
      have hlt : x.text.length < ts.length := by simpa using (lt_of_mem_numbered hx).1
      simp [Label.origin, Origin.label?, Label.map, textNumbered, hlt]
  | place position =>
      obtain ⟨x, hx, rfl⟩ := List.mem_map.mp (h.place_mem hl)
      have hlt : x.position.offset < ts.length := by simpa using (lt_of_mem_numbered hx).2
      simp [Label.origin, Origin.label?, Label.map, placeNumbered, hlt]

/-- Tokens of the same kinds have a tree with this outline. -/
theorem fits (h : p.Derives (numbered (kinds ts)) t) (hu : p.Derives ts u) :
    (Outline.ofNumbered t).Fits ts u := by
  have htree := h.relabel (textNumbered ts) (placeNumbered ts)
  rw [relabel_numbered] at htree
  obtain rfl := htree.unique hu
  refine ⟨t.skeleton_relabel _ _, ?_⟩
  rw [t.labels_relabel, Outline.ofNumbered, List.map_map, List.map_map]
  exact List.map_congr_left fun l hl => (h.label?_origin hl).symm

end Production.Derives

/-! ## Verdicts -/

/-- How a call ends, as far as it is decided by kinds. -/
inductive Verdict where
  | rejects (expected : Expected)
  | accepts (outline : Outline)

/-- The result is the one of the verdict, for a call that has consumed these
tokens and has come to stand in front of that one: the error with the expected
kinds, or the one tree that has the outline. -/
def Verdict.Settles : Verdict → List Token → Token → Except ParseError Fragment → Prop
  | rejects expected, _, lookahead, result => result = .error ⟨lookahead, expected⟩
  | accepts outline, consumed, _, result =>
    ∃ tree, result = .ok tree ∧ ∀ t, outline.Fits consumed t ↔ t = tree

/-- A list of tokens can be consumed up to its last one. -/
theorem TokenStream.consumes_before (t : Token) : ∀ {ts : List Token} (last : Position),
    (∀ x ∈ ts, x.kind ≠ .endOfInput) →
      ∃ c, (Cursor.ofSource (⟨ts ++ [t], last⟩ : TokenStream)).Consumes ts c ∧ c.current = t
  | [], last, _ => ⟨Cursor.ofSource ⟨[t], last⟩, rfl, rfl⟩
  | x :: ts, _, h => by
      obtain ⟨hx, hts⟩ := List.forall_mem_cons.mp h
      obtain ⟨c, hc, hcurrent⟩ := consumes_before t x.position hts
      exact ⟨c, Cursor.consumes_cons.mpr ⟨rfl, hx, hc⟩, hcurrent⟩

namespace Production

variable {p : Production} {c : Cursor σ} {d d' : Cursor τ} {ts us : List Token}

/-- Where the kinds are those of another run, the production stops as that
run did, and comes to the same verdict. -/
theorem stops_alike (hts : c.Consumes ts (p.parser c).cursor) (hus : d.Consumes us d')
    (hkinds : kinds us = kinds ts)
    (hlookahead : d'.current.kind = (p.parser c).cursor.current.kind) :
    (p.parser d).cursor = d' ∧ SameVerdict anyValues (p.parser c).result (p.parser d).result := by
  have halike : Alike (p.parser : Parser σ Fragment) (p.parser : Parser τ Fragment) := p.alike
  obtain ⟨ts', hts', hstops⟩ := halike c
  obtain rfl := hts.tokens_unique hts'
  exact hstops d d' ⟨⟨us, hkinds, hus⟩, hlookahead⟩

theorem derives_of_ok (hus : d.Consumes us (p.parser d).cursor) {t : Fragment}
    (h : (p.parser d).result = .ok t) : p.Derives us t := by
  obtain ⟨us', hus', hderives⟩ := p.recognises.runs trivial (runs_iff.mpr ⟨h, rfl⟩)
  obtain rfl := hus.tokens_unique hus'
  exact hderives

theorem token_of_error {e : ParseError} (h : (p.parser d).result = .error e) :
    e.token = (p.parser d).cursor.current := by
  obtain ⟨-, -, htoken, -⟩ := p.recognises.fails trivial (fails_iff.mpr ⟨h, rfl⟩)
  exact htoken

/-- The production on numbered tokens of these kinds in front of one of the
kind `k`. -/
def onNumbered (p : Production) (ks : List TokenKind) (k : TokenKind) :
    Outcome TokenStream Fragment :=
  p.parser (.ofSource (.ofList (numbered ks ++ [.plain k])))

/-- The verdict on all tokens of these kinds. -/
def verdict (p : Production) (ks : List TokenKind) (k : TokenKind) : Verdict :=
  match (p.onNumbered ks k).result with
  | .error e => .rejects e.expected
  | .ok t => .accepts (.ofNumbered t)

/-- What a production has consumed can be replaced by numbered tokens. -/
theorem onNumbered_alike (hus : d.Consumes us (p.parser d).cursor) :
    let o := p.onNumbered (kinds us) (p.parser d).cursor.current.kind
    SameVerdict anyValues (p.parser d).result o.result ∧
      ∀ t, o.result = .ok t → p.Derives (numbered (kinds us)) t := by
  intro o
  have hne := kind_ne_of_kinds (kinds_numbered (kinds us)) hus.kind_ne
  obtain ⟨c, hc, hcurrent⟩ :=
    TokenStream.consumes_before (.plain (p.parser d).cursor.current.kind) .start hne
  obtain ⟨hcursor, hverdict⟩ := stops_alike hus hc (kinds_numbered _) (by rw [hcurrent]; rfl)
  exact ⟨hverdict, fun t ht => derives_of_ok (hcursor ▸ hc) ht⟩

/-- Whatever a production has consumed, kinds settle its result. -/
theorem verdict_settles (hus : d.Consumes us (p.parser d).cursor) :
    (p.verdict (kinds us) (p.parser d).cursor.current.kind).Settles us
      (p.parser d).cursor.current (p.parser d).result := by
  obtain ⟨hsame, hderives⟩ := onNumbered_alike hus
  unfold verdict
  generalize p.onNumbered (kinds us) (p.parser d).cursor.current.kind = o at hsame hderives
  cases hd : (p.parser d).result with
  | error e =>
      cases ho : o.result with
      | ok t =>
          rw [hd, ho] at hsame
          exact hsame.elim
      | error e' =>
          rw [hd, ho] at hsame
          have hexpected : e.expected = e'.expected := hsame
          simp only [Verdict.Settles, ← hexpected, ← token_of_error hd]
  | ok u =>
      cases ho : o.result with
      | error e' =>
          rw [hd, ho] at hsame
          exact hsame.elim
      | ok t =>
          have hfits := (hderives t ho).fits (derives_of_ok hus hd)
          exact ⟨u, rfl, fun _ => ⟨fun h => h.unique hfits, fun h => h ▸ hfits⟩⟩

example : assignment.verdict [.identifier, .equals, .integer] .kwEnd =
    .accepts ⟨.assignment ⟨"", (Factor.integer "").toExpression, .start⟩,
      [.placeOf 0, .textOf 0, .textOf 2]⟩ := rfl

end Production

/-! ## Sources -/

namespace TokenSource

theorem pull_add_one (n : Nat) (s : σ) : pull (n + 1) s = pull n s ++ [(next (behind n s)).1] := by
  induction n generalizing s with
  | zero => rfl
  | succ n ih => exact congrArg ((next s).1 :: ·) (ih (next s).2)

theorem length_pull (n : Nat) (s : σ) : (pull n s).length = n := by
  induction n generalizing s with
  | zero => rfl
  | succ n ih => exact congrArg (· + 1) (ih (next s).2)

/-- The same kinds, but for the last one, and the same last one. -/
theorem kinds_pull_add_one {k : Nat} {s : σ} {s' : τ}
    (h : kinds (pull (k + 1) s') = kinds (pull (k + 1) s)) :
    kinds (pull k s') = kinds (pull k s) ∧
      (next (behind k s')).1.kind = (next (behind k s)).1.kind := by
  rw [pull_add_one, pull_add_one, kinds, kinds, List.map_append, List.map_append] at h
  obtain ⟨hfirst, hlast⟩ := List.append_inj' h rfl
  exact ⟨hfirst, List.head_eq_of_cons_eq hlast⟩

theorem behind_add_one (n : Nat) (s : σ) : behind (n + 1) s = (next (behind n s)).2 := by
  induction n generalizing s with
  | zero => rfl
  | succ n ih => exact ih (next s).2

end TokenSource

theorem Cursor.consumes_pull (n : Nat) (s : σ) (h : ∀ t ∈ pull n s, t.kind ≠ .endOfInput) :
    (ofSource s).Consumes (pull n s) (.ofSource (behind n s)) := by
  induction n generalizing s with
  | zero => exact rfl
  | succ n ih =>
      obtain ⟨hhead, htail⟩ := List.forall_mem_cons.mp h
      exact ⟨rfl, hhead, ih (next s).2 htail⟩

/-- What is consumed are the next tokens of the source. -/
theorem Cursor.Consumes.eq_pull {s : σ} {c : Cursor σ} {ts : List Token}
    (h : (ofSource s).Consumes ts c) :
    pull ts.length s = ts ∧ c = .ofSource (behind ts.length s) := by
  induction ts generalizing s with
  | nil => exact ⟨rfl, h⟩
  | cons t ts ih =>
      obtain ⟨rfl, -, hrest⟩ := h
      obtain ⟨hpull, hc⟩ := ih hrest
      exact ⟨congrArg ((next s).1 :: ·) hpull, hc⟩

/-- That it is written down does not change what is pulled. -/
theorem Traced.pull_eq (n : Nat) (s : Traced σ) : pull n s = pull n s.source := by
  induction n generalizing s with
  | zero => rfl
  | succ n ih => exact congrArg ((next s.source).1 :: ·) (ih (next s).2)

theorem Traced.pulled_behind (n : Nat) (s : Traced σ) :
    (behind n s).pulled = s.pulled ++ pull n s.source := by
  induction n generalizing s with
  | zero => exact (List.append_nil _).symm
  | succ n ih =>
      rw [behind, ih]
      exact List.append_assoc ..

/-! ## Calls -/

namespace Production

/-- A call that consumes `k` tokens of a source and comes to a verdict. -/
structure Stops (p : Production) (s : σ) (k : Nat) (verdict : Verdict) : Prop where
  /-- One token is pulled behind those that are consumed, and no more. -/
  pulls : p.pulledFrom s = pull (k + 1) s
  lookahead : pull (k + 1) s = pull k s ++ [(p.callOn s).cursor.current]
  rest : (p.callOn s).cursor.source.source = behind (k + 1) s
  result : verdict.Settles (pull k s) (p.callOn s).cursor.current (p.callOn s).result

/-- The parser consumes the next `k` tokens of the source. -/
def Consumes (p : Production) (s : σ) (k : Nat) : Prop :=
  (Cursor.ofSource s).Consumes (pull k s) (p.parser (.ofSource s)).cursor

variable {p : Production} {s : σ} {s' : τ} {k : Nat}

theorem exists_consumes (p : Production) (s : σ) : ∃ k, p.Consumes s k := by
  have halike : Alike (p.parser : Parser σ Fragment) (p.parser : Parser σ Fragment) := p.alike
  obtain ⟨ts, hts, -⟩ := halike (.ofSource s)
  refine ⟨ts.length, ?_⟩
  rwa [Consumes, hts.eq_pull.1]

theorem callOn_eq (p : Production) (s : σ) :
    p.callOn s = (p.parser (.ofSource s)).counting 0 :=
  p.mirrors_counting (.ofSource s)

namespace Consumes

theorem cursor_eq (h : p.Consumes s k) : (p.parser (.ofSource s)).cursor = .ofSource (behind k s) :=
  h.unique (Cursor.consumes_pull k s h.kind_ne)

/-- Only kinds count, of the consumed tokens and of the next one. -/
theorem transfer (h : p.Consumes s k) (hkinds : kinds (pull (k + 1) s') = kinds (pull (k + 1) s)) :
    p.Consumes s' k := by
  obtain ⟨hconsumed, hlookahead⟩ := TokenSource.kinds_pull_add_one hkinds
  have hs' := Cursor.consumes_pull k s' (kind_ne_of_kinds hconsumed h.kind_ne)
  obtain ⟨hcursor, -⟩ := stops_alike h hs' hconsumed (by rw [h.cursor_eq]; exact hlookahead)
  rwa [Consumes, hcursor]

/-- The call does what the parser does, and writing down what it pulls does
not change what it consumes. -/
theorem stops (h : p.Consumes s k) :
    p.Stops s k (p.verdict (kinds (pull k s)) (next (behind k s)).1.kind) where
  pulls := by
    have htraced : p.Consumes (Traced.ofSource s) k := h.transfer (by rw [Traced.pull_eq]; rfl)
    rw [pulledFrom, callOn_eq, Outcome.counting, htraced.cursor_eq]
    show (next (behind k (Traced.ofSource s))).2.pulled = _
    rw [← TokenSource.behind_add_one, Traced.pulled_behind]
    rfl
  lookahead := by
    rw [callOn_eq, Outcome.counting, h.cursor_eq]
    exact TokenSource.pull_add_one k s
  rest := by
    rw [callOn_eq, Outcome.counting, h.cursor_eq]
    exact (TokenSource.behind_add_one k s).symm
  result := by
    have hsettles := verdict_settles h
    rw [h.cursor_eq] at hsettles
    rw [callOn_eq, Outcome.counting, h.cursor_eq]
    exact hsettles

end Consumes

end Production

/-- A call of a production consumes some number `k` of tokens and comes to a
verdict, and on every source whose first `k + 1` tokens are of the same kinds
it consumes as many and comes to the same verdict. In each case no token is
pulled behind these. -/
theorem decides_by_kinds (p : Production) (s : σ) :
    ∃ k verdict, p.Stops s k verdict ∧
      ∀ {τ : Type} [TokenSource τ] (s' : τ),
        kinds (pull (k + 1) s') = kinds (pull (k + 1) s) → p.Stops s' k verdict := by
  obtain ⟨k, hconsumes⟩ := p.exists_consumes s
  refine ⟨k, _, hconsumes.stops, fun s' hkinds => ?_⟩
  obtain ⟨hconsumed, hlookahead⟩ := TokenSource.kinds_pull_add_one hkinds
  rw [← hconsumed, ← hlookahead]
  exact (hconsumes.transfer hkinds).stops

/-- A number for a number and a name for a name, in a text and in a list of
tokens: the same three tokens are consumed, in front of an `end`. -/
theorem decides_by_kinds_assignment : ∃ verdict,
    Production.assignment.Stops (Scanner.ofText "x = 1 end") 3 verdict ∧
      Production.assignment.Stops
        (TokenStream.ofList (tokenize "total = 42\nend of the text")) 3 verdict := by
  obtain ⟨k, verdict, hstops, hsame⟩ :=
    decides_by_kinds .assignment (Scanner.ofText "x = 1 end")
  have hpulled : (Production.assignment.pulledFrom (Scanner.ofText "x = 1 end")).length = 4 := rfl
  obtain rfl : k = 3 := by
    rw [hstops.pulls, TokenSource.length_pull] at hpulled
    omega
  exact ⟨verdict, hstops, hsame _ rfl⟩

end WorkflowScript
