import WorkflowScript.Proofs.Token.Cutting
import WorkflowScript.Proofs.Token.Placement
import WorkflowScript.Proofs.Workflow.Rejection
import WorkflowScript.Proofs.Workflow.RoundTrip

/-!
# Workflows that are cut off

No beginning of an accepted workflow is accepted before its last `end` is
complete, and the error is where the text was cut (`truncation_diagnosed`).
All tokens of the beginning but the last one are tokens of the whole, so the
parser gets over them (`Entry.offending_behind`). And it does not stop there
with a workflow: no sentence is the beginning of another one
(`DerivesWorkflow.unique_prefix`), and a name in place of the last `end`
could not have gone on (`DerivesWorkflow.stays_closed`).
-/

namespace WorkflowScript

open WorkflowScript.Parser

/-! ## Sentences within sentences -/

/-- Two sequences that a parser gets over, each wherever it stands, cannot be
one the beginning of the other. -/
theorem Parser.unique_prefix {α : Type} {p : Parser TokenStream α} {a a' : α}
    {us us' vs vs' : List Token} (h : ∀ {c d}, c.Consumes us d → p.Runs c a d)
    (h' : ∀ {c d}, c.Consumes us' d → p.Runs c a' d) (htokens : us ++ vs = us' ++ vs')
    (hproper : ∀ x ∈ us ++ vs, x.kind ≠ .endOfInput) : us = us' := by
  obtain ⟨e, he, -⟩ := TokenStream.consumes_all .start hproper
  obtain ⟨d, hd, -⟩ := Cursor.consumes_append.mp he
  rw [htokens] at he
  obtain ⟨d', hd', -⟩ := Cursor.consumes_append.mp he
  rw [← htokens] at hd'
  obtain ⟨-, rfl⟩ := (h hd).unique (h' hd')
  exact hd.tokens_unique hd'

namespace Grammar

theorem DerivesNode.unique_prefix {us us' vs vs' : List Token} {n n' : Node}
    (h : DerivesNode us n) (h' : DerivesNode us' n') (htokens : us ++ vs = us' ++ vs')
    (hproper : ∀ x ∈ us ++ vs, x.kind ≠ .endOfInput) : us = us' :=
  Parser.unique_prefix (p := Grammar.node (max n.nesting n'.nesting)) (h.runs (Nat.le_max_left ..))
    (h'.runs (Nat.le_max_right ..)) htokens hproper

/-- No workflow is the beginning of another one. -/
theorem DerivesWorkflow.unique_prefix {us vs : List Token} {w w' : Workflow}
    (h : DerivesWorkflow us w) (h' : DerivesWorkflow (us ++ vs) w') : vs = [] := by
  have hproper : ∀ x ∈ us ++ vs, x.kind ≠ .endOfInput := fun x hx => (h'.proper x hx).2
  have hus := Parser.unique_prefix (p := Grammar.workflow (max w.nesting w'.nesting))
    (h.runs (Nat.le_max_left ..)) (h'.runs (Nat.le_max_right ..))
    (List.append_nil (us ++ vs)).symm hproper
  simpa using hus

theorem DerivesNode.starts {ts : List Token} {n : Node} (h : DerivesNode ts n) :
    ∃ start more, ts = start :: more ∧ start.kind ∈ nodeStarts := by
  cases h with
  | @node start name ts fin kind _ _ hstart _ _ _ =>
      refine ⟨start, _, rfl, ?_⟩
      rw [hstart]
      cases kind <;> decide

/-- Behind the nodes of a workflow stands another node or its `end`. -/
theorem DerivesNodes.next_mem {ts : List Token} {ns : List Node} (h : DerivesNodes ts ns) :
    ∀ {ts' us : List Token} {ns' : List Node} {fin x : Token}, DerivesNodes ts' ns' →
      fin.kind = .kwEnd → ts' ++ [fin] = ts ++ x :: us → x.kind ∈ .kwEnd :: nodeStarts := by
  induction h with
  | nil =>
      intro ts' us ns' fin x h' hfin htokens
      cases h' with
      | nil =>
          obtain ⟨rfl, -⟩ := List.cons.inj htokens
          rw [hfin]
          exact List.mem_cons_self ..
      | cons hn' _ =>
          obtain ⟨start, more, rfl, hstart⟩ := hn'.starts
          obtain ⟨rfl, -⟩ := List.cons.inj htokens
          exact List.mem_cons_of_mem _ hstart
  | @cons us₀ vs₀ n ns hn _ ih =>
      intro ts' us ns' fin x h' hfin htokens
      have hproper : ∀ y ∈ ts' ++ [fin], y.kind ≠ .endOfInput := by
        intro y hy
        rcases List.mem_append.mp hy with hy | hy
        · exact (h'.proper y hy).2
        · obtain rfl := List.mem_singleton.mp hy
          rw [hfin]
          decide
      cases h' with
      | nil =>
          obtain ⟨start, more, rfl, hstart⟩ := hn.starts
          obtain ⟨rfl, -⟩ := List.cons.inj htokens
          rw [hfin] at hstart
          exact absurd hstart (by decide)
      | cons hn' hns' =>
          rw [List.append_assoc, List.append_assoc] at htokens
          rw [List.append_assoc] at hproper
          obtain rfl := hn'.unique_prefix hn htokens hproper
          exact ih hns' hfin (List.append_cancel_left htokens)

/-- The tokens of a workflow up to its `end` do not go on with anything but
a node or the `end`. -/
theorem DerivesWorkflow.stays_closed {ts us : List Token} {fin x : Token} {w w' : Workflow}
    (h : DerivesWorkflow (ts ++ [fin]) w) (h' : DerivesWorkflow (ts ++ x :: us) w') :
    x.kind ∈ .kwEnd :: nodeStarts := by
  generalize htokens : ts ++ [fin] = tokens at h
  generalize htokens' : ts ++ x :: us = tokens' at h'
  cases h with
  | @workflow start name body fin' _ _ _ hnodes _ =>
      obtain ⟨rfl, -⟩ := List.append_inj' htokens rfl
      cases h' with
      | workflow _ _ hnodes' hfin' =>
          simp only [List.cons_append, List.cons.injEq] at htokens'
          exact hnodes.next_mem hnodes' hfin' htokens'.2.2.symm

theorem DerivesWorkflow.ends {ts : List Token} {w : Workflow} (h : DerivesWorkflow ts w) :
    ∃ body fin, ts = body ++ [fin] ∧ fin.kind = .kwEnd := by
  cases h with
  | @workflow start name body fin _ _ _ _ hfin => exact ⟨start :: name :: body, fin, rfl, hfin⟩

end Grammar

/-! ## Where the parser fails -/

/-- What goes on to a sentence is consumed before the parser fails. -/
theorem Entry.offending_behind {σ : Type} [TokenSource σ] {e : Entry} {c d f : Cursor σ}
    {common last us : List Token} {t : e.Tree} {err : ParseError}
    (hc : c.Consumes (common ++ last) f) (hend : f.current.kind = .endOfInput)
    (haccepted : e.Derives (common ++ us) t) (hn : e.nesting t ≤ maxNesting)
    (hfails : e.parser.Fails c err d) :
    ∃ vs, vs <:+ last ∧ d.Consumes vs f ∧ err.token = d.current := by
  obtain ⟨p, hp, htoken, -⟩ := behind_of_fails hfails
  obtain ⟨vs, htokens, hvs⟩ := hp.prefix_of_atEnd hc hend
  refine ⟨vs, ?_, hvs, htoken⟩
  rcases List.append_eq_append_iff.mp htokens with ⟨more, rfl, rfl⟩ | ⟨more, rfl, rfl⟩
  · exact ⟨more, rfl⟩
  · cases more with
    | nil => exact ⟨[], rfl⟩
    | cons x more =>
        have hx : x.kind = d.current.kind := by rw [hvs.1]
        have hproper : ∀ y ∈ p ++ x :: (more ++ us), y.kind ≠ .endOfInput := by
          intro y hy
          refine (haccepted.proper y ?_).2
          simpa only [List.append_assoc, List.cons_append] using hy
        refine absurd ((parse_eq_ok_iff hproper).mpr ⟨?_, hn⟩)
          (parse_ne_ok_of_stop hp (stop_of_fails hfails) hx hproper t)
        simpa only [List.append_assoc, List.cons_append] using haccepted

/-- A text in front of whose last piece something acceptable goes on is
rejected at that piece or behind it. -/
theorem Entry.offending_at_cut {e : Entry} {front : String} {common last us : List Token}
    {r q : Position} {piece : List Char} {t : e.Tree} {err : ParseError}
    (hfront : Lexes .start front.toList (common ++ last) q) (hpiece : LastPiece r piece last)
    (haccepted : e.Derives (common ++ us) t) (hn : e.nesting t ≤ maxNesting)
    (herr : e.parseText front = .error err) :
    err.token.kind = .endOfInput ∧ err.token ∈ tokenize front ∨
      (lexemes front).getLast? = some err.token := by
  obtain ⟨f, hf, hend⟩ := hfront.consumes
  rw [parseText_eq_result] at herr
  obtain ⟨vs, hvs, hd, htoken⟩ := offending_behind hf (by rw [hend]; rfl) haccepted hn
    (fails_iff.mpr ⟨herr, rfl⟩)
  rw [hfront.tokenize_eq, hfront.lexemes_eq, htoken]
  cases vs with
  | nil =>
      rw [← show f = _ from hd, hend]
      exact .inl ⟨rfl, List.mem_append_right _ (List.mem_singleton_self _)⟩
  | cons v vs =>
      rw [hd.1]
      exact .inr (hpiece.getLast?_of_suffix hvs common)

/-! ## Texts that are cut off -/

/-- What a word grows into from `end` is none of the keywords that may stand
behind a node, unless it has not grown. -/
theorem eq_nil_of_grown_end {more : List Char}
    (h : TokenKind.ofWord ("end" ++ String.ofList more) ∈ .kwEnd :: Grammar.nodeStarts) :
    more = [] := by
  rcases Lexical.ofWord_eq_identifier_or_mem ("end" ++ String.ofList more) with
    ⟨hname, -⟩ | ⟨-, hspelling⟩
  · rw [hname] at h
    exact absurd h (by decide)
  · have htext (word : String) (hk : (TokenKind.ofWord ("end" ++ String.ofList more)).spelling? =
        some word) : word.toList = 'e' :: 'n' :: 'd' :: more := by
      rw [hspelling] at hk
      rw [← Option.some.inj hk]
      simp
    simp only [Grammar.nodeStarts, List.mem_cons, List.not_mem_nil, or_false] at h
    rcases h with hk | hk | hk | hk <;> rw [hk] at htext
    · simpa using htext "end" rfl
    · simpa using htext "node" rfl
    · simpa using htext "state" rfl
    · simpa using htext "join" rfl

/-- If both the beginning of a text and the text are sentences, then the last
piece of the beginning is all that was left of the text. -/
theorem eq_last_of_derives {common last us : List Token} {r q : Position}
    {piece back : List Char} {w w' : Workflow} (hpiece : LastPiece r piece last)
    (hus : Lexes r (piece ++ back) us q) (h : Grammar.DerivesWorkflow (common ++ last) w)
    (h' : Grammar.DerivesWorkflow (common ++ us) w') : us = last := by
  cases hpiece with
  | trivia _ =>
      rw [List.append_nil] at h
      exact h.unique_prefix h'
  | @token gap t hgap hsplits hp =>
      obtain ⟨body, fin, htokens, hfin⟩ := h.ends
      obtain rfl := List.singleton_inj.mp (List.append_inj' htokens rfl).2
      have hspells := hsplits.spells
      rw [hfin, String.ofList_toList] at hspells
      have htext : t.text = "end" := (Option.some.inj (of_decide_eq_true hspells)).symm
      have hword : Lexical.isWord t.text := by rw [htext]; decide
      obtain ⟨more, us', rfl⟩ := Lexes.grow_word hgap hp hword hus
      have hnext := h.stays_closed h'
      rw [htext] at hnext
      obtain rfl := eq_nil_of_grown_end hnext
      have hsame : Token.mk (.ofWord (t.text ++ String.ofList [])) (t.text ++ String.ofList [])
          t.position = t := by
        rcases t with ⟨k, text, p⟩
        obtain rfl : k = .kwEnd := hfin
        obtain rfl : text = "end" := htext
        rfl
      rw [hsame] at h' ⊢
      rw [List.append_cons] at h'
      rw [h.unique_prefix h']

/-- Cutting an accepted workflow anywhere in front of or within its last
`end` makes it fail, at the end of the input or at the last token that is
left. -/
theorem truncation_diagnosed (front back : String) (w : Workflow)
    (h : (parseWorkflow (front ++ back)).result = .ok w) :
    ∃ fin, (lexemes (front ++ back)).getLast? = some fin ∧ fin.kind = .kwEnd ∧
      (front.utf8ByteSize < fin.position.offset + fin.text.utf8ByteSize →
        ∃ err, (parseWorkflow front).result = .error err ∧
          (err.token.kind = .endOfInput ∧ err.token ∈ tokenize front ∨
            (lexemes front).getLast? = some err.token)) := by
  obtain ⟨ts, q, hts⟩ := exists_lexes .start front.toList
  obtain ⟨common, last, r, piece, rfl, hpiece, hextend⟩ := hts.extend back.toList
  obtain ⟨us, q', hus⟩ := exists_lexes r (piece ++ back.toList)
  have hwhole : Lexes .start (front ++ back).toList (common ++ us) q' := by
    rw [String.toList_append]
    exact hextend us q' hus
  obtain ⟨hderives, hn⟩ := (Entry.parseText_eq_ok_iff (e := .workflow) hwhole).mp h
  obtain ⟨body, fin, htokens, hfin⟩ := Grammar.DerivesWorkflow.ends hderives
  refine ⟨fin, ?_, hfin, fun hcut => ?_⟩
  · rw [hwhole.lexemes_eq, htokens, List.getLast?_concat]
  cases hresult : (parseWorkflow front).result with
  | error err => exact ⟨err, rfl, Entry.offending_at_cut hts hpiece hderives hn hresult⟩
  | ok w' =>
      -- Then the last `end` would stand within the beginning.
      obtain ⟨hfront, -⟩ := (Entry.parseText_eq_ok_iff (e := .workflow) hts).mp hresult
      obtain rfl := eq_last_of_derives hpiece hus hfront hderives
      have hmem : fin ∈ lexemes front := by
        rw [hts.lexemes_eq, htokens]
        exact List.mem_append_right _ (List.mem_singleton_self fin)
      have hle := lexemes_within front fin hmem
      omega

/-- A workflow without its last letter: the error is at the end of the input
or at what is left of the `end`. -/
theorem truncation_within_end : ∃ err, (parseWorkflow "workflow w en").result = .error err ∧
    (err.token.kind = .endOfInput ∧ err.token ∈ tokenize "workflow w en" ∨
      (lexemes "workflow w en").getLast? = some err.token) := by
  obtain ⟨fin, hlast, -, hcut⟩ := truncation_diagnosed "workflow w en" "d" ⟨"w", [], .start⟩ rfl
  have hfin : (lexemes ("workflow w en" ++ "d")).getLast? = some ⟨.kwEnd, "end", ⟨11, 1, 12⟩⟩ := by
    rfl
  obtain rfl := Option.some.inj (hfin.symm.trans hlast)
  exact hcut (by decide)

end WorkflowScript
