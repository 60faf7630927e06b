import WorkflowScript.Fragment.Basic

/-!
# Sessions

A session runs one rule after another on the same cursor. A rule that
fails leaves the cursor on the token it failed at, and the next rule goes
on from there.
-/

namespace WorkflowScript

/-- A step of a session: a rule, or the demand that the input has ended. -/
inductive Step where
  | production (p : Production)
  | endOfInput
deriving Repr, DecidableEq

variable {σ : Type} [TokenSource σ]

/-- A step as a parser; only a rule yields a tree. -/
def Step.parser : Step → Parser σ (Option Fragment)
  | .production p => some <$> p.parser
  | .endOfInput => do
    let _ ← Parser.expect .endOfInput
    pure none

/-- The outcomes of the steps, each run where the one before it stopped. -/
def runSteps : List Step → Cursor σ → List (Outcome σ (Option Fragment))
  | [], _ => []
  | step :: steps, c =>
    let outcome := step.parser c
    outcome :: runSteps steps outcome.cursor

/-- Where a session stops. -/
def stopOfSteps : List Step → Cursor σ → Cursor σ
  | [], c => c
  | step :: steps, c => stopOfSteps steps (step.parser c).cursor

end WorkflowScript
