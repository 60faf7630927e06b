import WorkflowScript.Proofs.Token.Placement
import WorkflowScript.Proofs.Workflow.Relocation
import WorkflowScript.Proofs.Workflow.RoundTrip

/-!
# Scripts one below the other

Statements end without a terminator, and yet a script can be put below
another one: the line feed between them ends the last token and the last
comment of the upper one, and the sentences of `statements` are closed under
concatenation, so the upper script takes in nothing of the lower one. Every
position of the lower script moves down by the text above it
(`parseScript_join`).
-/

namespace WorkflowScript

/-! ## Positions below a text -/

/-- The place in a text that stands below `above`, on lines of its own. -/
def Position.below (above : String) (p : Position) : Position :=
  ⟨p.offset + above.utf8ByteSize + 1, p.line + above.toList.count '\n' + 1, p.column⟩

theorem Position.below_advance (above : String) (p : Position) (c : Char) :
    (p.advance c).below above = (p.below above).advance c := by
  unfold advance below
  split <;> simp <;> omega

/-- The lower text begins behind the line feed. -/
theorem Position.below_start (above : String) :
    start.below above = (start.advanceBy above.toList).advance '\n' := by
  have hmarks := marks_advanceBy above.toList
  have hoffset := hmarks.offset
  rw [byteSize_toList] at hoffset
  have hfeed : '\n'.utf8Size = 1 := by decide
  rw [advance, if_pos rfl, below, hoffset, hmarks.line, hfeed, start]
  simp

theorem lexes_below {above below : String} {ts us : List Token} {p q : Position}
    (h : Lexes .start above.toList ts p) (hts : ∀ t ∈ ts, t.kind ≠ .invalid)
    (h' : Lexes .start below.toList us q) :
    Lexes .start (above ++ "\n" ++ below).toList
      (ts ++ us.map (Token.mapPosition (Position.below above))) (q.below above) := by
  have hbelow := h'.move (Position.below_advance above)
  rw [Position.below_start, ← h.ends] at hbelow
  have htext : (above ++ "\n" ++ below).toList = above.toList ++ '\n' :: below.toList := by
    simp
  rw [htext]
  exact h.append_line hts hbelow

/-! ## Sentences one behind the other -/

theorem Grammar.StatementSymbol.Derives.append {ts us : List Token} {ss ss' : List Statement}
    (h : statements.Derives ts ss) (h' : statements.Derives us ss') :
    statements.Derives (ts ++ us) (ss ++ ss') := by
  induction ss generalizing ts with
  | nil =>
      cases h
      exact h'
  | cons s ss ih =>
      cases h with
      | cons hs hss =>
          rw [List.append_assoc]
          exact .cons hs (ih hss)

theorem nestingOfStatements_append (ss ss' : List Statement) :
    nestingOfStatements (ss ++ ss') = max (nestingOfStatements ss) (nestingOfStatements ss') := by
  induction ss with
  | nil => simp [nestingOfStatements]
  | cons s ss ih => simp only [List.cons_append, nestingOfStatements, ih, Nat.max_assoc]

/-! ## Whole scripts -/

/-- Two accepted scripts one below the other are an accepted script. Its
statements are those of the upper one, where they were, and those of the
lower one, moved down with every position in them. -/
theorem parseScript_join (above below : String) (ss ss' : List Statement)
    (h : (parseScript above).result = .ok ss) (h' : (parseScript below).result = .ok ss') :
    (parseScript (above ++ "\n" ++ below)).result =
      .ok (ss ++ mapStatements (Position.below above) ss') := by
  obtain ⟨ts, p, hts⟩ := exists_lexes .start above.toList
  obtain ⟨us, q, hus⟩ := exists_lexes .start below.toList
  obtain ⟨hss, hn⟩ := (Entry.parseText_eq_ok_iff (e := .script) hts).mp h
  obtain ⟨hss', hn'⟩ := (Entry.parseText_eq_ok_iff (e := .script) hus).mp h'
  have hlexes := lexes_below hts (fun t ht => (hss.proper t ht).1) hus
  refine (Entry.parseText_eq_ok_iff (e := .script) hlexes).mpr ⟨?_, ?_⟩
  · exact Grammar.StatementSymbol.Derives.append hss (hss'.relocate (Position.below above))
  · show nestingOfStatements (ss ++ mapStatements (Position.below above) ss') ≤ maxNesting
    rw [nestingOfStatements_append, nestingOfStatements_mapPositions]
    exact Nat.max_le.mpr ⟨hn, hn'⟩

/-- A comment without a line feed does not run into the call below it. -/
theorem parseScript_join_commented :
    (parseScript ("a = b // not (c)" ++ "\n" ++ "go()")).result =
      .ok ([.assignment ⟨"a", (Factor.variable "b" ⟨4, 1, 5⟩).toExpression, .start⟩] ++
        mapStatements (Position.below "a = b // not (c)") [.call ⟨"go", [], .start⟩]) :=
  parseScript_join "a = b // not (c)" "go()" _ _ rfl rfl

end WorkflowScript
