import WorkflowScript.Grammar.Recording
import WorkflowScript.Proofs.Session.Counter
import WorkflowScript.Proofs.Workflow.Rejection

/-!
# Parses with a record

Parsers that keep a record do what those with a counter do, and change the
counter as they do (`Records`). That is another congruence, so it holds of
every start symbol. With the counter gone, too, what is left of a parse with a
record is the parse of the same source (`Entry.plain_recorded`).
-/

namespace WorkflowScript

open WorkflowScript.Grammar WorkflowScript.Parser

variable {σ α β : Type}

/-! ## Leaving the record out -/

def Cursor.unrecorded (c : Cursor (Recorded σ)) : Cursor (Counted σ) := ⟨c.source.source, c.current⟩

def Outcome.unrecorded (o : Outcome (Recorded σ) α) : Outcome (Counted σ) α :=
  ⟨o.result, o.events, o.cursor.unrecorded⟩

namespace Parser

/-- `p` does what `q` does, the counter included. -/
def Records (p : Parser (Recorded σ) α) (q : Parser (Counted σ) α) : Prop :=
  ∀ c, (p c).unrecorded = q c.unrecorded

protected theorem Records.bind {p : Parser (Recorded σ) α} {q : Parser (Counted σ) α}
    {f : α → Parser (Recorded σ) β} {g : α → Parser (Counted σ) β} (hp : Records p q)
    (hf : ∀ a, Records (f a) (g a)) : Records (p >>= f) (q >>= g) := by
  intro c
  have hq := (hp c).symm
  rcases hpc : p c with ⟨e | a, events, d⟩
  · rw [hpc] at hq
    rw [bind_apply_error hpc, bind_apply_error hq]
    rfl
  · rw [hpc] at hq
    rw [bind_apply_ok hpc, bind_apply_ok hq, ← hf a d]
    rfl

/-- To keep a record is a congruence. -/
def recording [TokenSource σ] : Congruence (Recorded σ) (Counted σ) where
  Rel := Records
  pure _ _ := rfl
  bind := Records.bind
  peek _ := rfl
  place _ := rfl
  unexpected _ _ := rfl
  notify _ _ := rfl
  advance _ := rfl
  sized h c := h (c.size + 1) c

end Parser

namespace Grammar

theorem records_nested {p : Parser (Recorded σ) α} {q : Parser (Counted σ) α} (h : Records p q) :
    Records (recordedNested p) (nested q) := by
  intro c
  have hopened : c.unrecorded.source.opened = c.opened := rfl
  have hlevel : (c.reopened (c.opened + 1)).unrecorded = c.unrecorded.setOpened (c.opened + 1) :=
    rfl
  have hinner := h (c.reopened (c.opened + 1))
  rw [hlevel] at hinner
  rw [recordedNested, nested, hopened, ← hinner]
  split <;> rfl

variable [TokenSource σ]

theorem related_recordingTurns (turns : Nat) :
    (recordingTurns turns).Related recording (countingTurns turns : Rules (Counted σ)) := by
  induction turns with
  | zero => exact ⟨fun _ => rfl, fun _ => rfl, fun _ => rfl⟩
  | succ turns ih =>
      rw [recordingTurns, countingTurns, countingOver_eq]
      exact ih.turn records_nested

theorem related_recordingRules :
    recordingRules.Related recording (countingRules : Rules (Counted σ)) :=
  related_recordingTurns _

end Grammar

/-! ## Leaving the counter out as well -/

def Outcome.uncounted (o : Outcome (Counted σ) α) : Outcome σ α :=
  ⟨o.result, o.events, ⟨o.cursor.source.source, o.cursor.current⟩⟩

def Outcome.plain (o : Outcome (Recorded σ) α) : Outcome σ α := ⟨o.result, o.events, o.cursor.plain⟩

/-- A parse with a record is a parse without one. -/
theorem plain_of_records [TokenSource σ] {p : Parser (Recorded σ) α} {q : Parser (Counted σ) α}
    {r : Parser σ α} (h : Records p q) (h' : Mirrors 0 q r) (s : σ) :
    (p (Cursor.recording s)).plain = r (Cursor.ofSource s) :=
  have houtcome := (h (Cursor.recording s)).trans (h' (Cursor.ofSource s))
  congrArg Outcome.uncounted houtcome

/-! ## Start symbols -/

namespace Entry

variable [TokenSource σ]

section Related

variable {τ : Type} [TokenSource τ] {C : Congruence σ τ} {r : Rules σ} {q : Rules τ}
  (h : r.Related C q)

include h

theorem related_rule (e : Entry) : C.Rel (e.rule r) (e.rule q) :=
  match e with
  | workflow => h.workflow
  | condition => C.conditionOf h.factor
  | script => C.repeatUntil h.statement _

theorem related_whole (e : Entry) : C.Rel (e.whole r) (e.whole q) :=
  match e with
  | workflow => C.toEnd h.workflow
  | condition => C.bind (C.toEnd (C.conditionOf h.factor)) fun _ => C.bind (C.notify _) fun _ =>
      C.pure _
  | script => C.repeatUntil h.statement _

end Related

/-! ## Recorded parses -/

/-- The parse of a source with a record of the counter. -/
def recorded (e : Entry) (s : σ) : Outcome (Recorded σ) e.Tree :=
  e.whole recordingRules (Cursor.recording s)

/-- Without the record it is the parse of a parser object. -/
theorem unrecorded_recorded (e : Entry) (s : σ) :
    (e.recorded s).unrecorded = e.whole countingRules (Cursor.fresh s) :=
  e.related_whole related_recordingRules _

/-- Without the counter, too, it is the parse of the source. -/
theorem plain_recorded (e : Entry) (s : σ) :
    (e.recorded s).plain = e.parser (Cursor.ofSource s) := by
  have h := e.related_whole (C := mirroring (σ := σ) 0) related_countingRules
  rw [Nat.sub_zero, whole_rulesWithin] at h
  exact plain_of_records (e.related_whole related_recordingRules) h s

theorem plain_rule (e : Entry) (s : σ) :
    (e.rule recordingRules (Cursor.recording s)).plain =
      e.production maxNesting (Cursor.ofSource s) := by
  have h := e.related_rule (C := mirroring (σ := σ) 0) related_countingRules
  rw [Nat.sub_zero, rule_rulesWithin] at h
  exact plain_of_records (e.related_rule related_recordingRules) h s

end Entry

end WorkflowScript
