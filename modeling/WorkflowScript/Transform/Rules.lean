import WorkflowScript.Transform.Fragment

/-!
# Transforming by rules

A rule replaces a node of one type, perhaps only when the node prints as a
given text, by a fixed tree, and does so a limited number of times. A list
of rules makes a transformer: of all rules that apply to an offered node
the first one fires, and at most one does.

Since every firing uses up one of finitely many turns, a transformation by
rules ends, and `ruleFuel` is fuel enough for it.
-/

namespace WorkflowScript

/-! ## Rules -/

structure Rule where
  hook : Hook
  /-- The written form that a node must have; `none` takes any node. -/
  trigger : Option String
  replacement : hook.Node
  /-- How often the rule may still fire. -/
  times : Nat

namespace Rule

/-- What the rule puts in the place of a node of hook `h` that prints as
`text`. -/
def answer? (rule : Rule) (h : Hook) (text : String) : Option h.Node :=
  if hh : rule.hook = h then
    if 0 < rule.times ∧ (rule.trigger = none ∨ rule.trigger = some text) then
      some (hh ▸ rule.replacement)
    else none
  else none

/-- The fuel that the rule's firings can take. -/
def fuel (rule : Rule) : Nat := rule.times * (rule.hook.toFragment rule.replacement).fuel

end Rule

/-- The first rule that applies: its number, its replacement, and the rules
after it has fired. -/
def fireFirst (h : Hook) (text : String) : List Rule → Option (Nat × h.Node × List Rule)
  | [] => none
  | rule :: rest =>
    match rule.answer? h text with
    | some node => some (0, node, { rule with times := rule.times - 1 } :: rest)
    | none =>
      (fireFirst h text rest).map fun (i, node, rest') => (i + 1, node, rule :: rest')

/-- One call of a hook, with the number of the rule that fired, if any. -/
structure HookCall where
  hook : Hook
  fired : Option Nat
deriving Repr, DecidableEq

/-- The rules as they stand, and the calls made so far, the latest first. -/
structure RuleState where
  rules : List Rule
  calls : List HookCall

/-- The transformer that a list of rules makes. -/
def ruleTransformer : Transformer RuleState where
  replace h node state :=
    match fireFirst h (h.print node) state.rules with
    | some (i, node', rules) => (node', ⟨rules, ⟨h, some i⟩ :: state.calls⟩)
    | none => (node, ⟨state.rules, ⟨h, none⟩ :: state.calls⟩)

/-- Fuel enough to transform a fragment by rules: what the fragment takes
and what all firings can add to it. -/
def ruleFuel (rules : List Rule) (f : Fragment) : Nat :=
  rules.foldr (fun rule fuel => rule.fuel + fuel) f.fuel

/-- The result of transforming a fragment by rules. -/
structure RuleResult where
  fragment : Fragment
  text : String
  /-- The hook calls, in order. -/
  calls : List HookCall

/-- Transforms a fragment by rules. -/
def Fragment.transformByRules (f : Fragment) (rules : List Rule) : Option RuleResult :=
  (f.transform ruleTransformer (ruleFuel rules f) ⟨rules, []⟩).map fun done =>
    ⟨done.value, done.text, done.state.calls.reverse⟩

end WorkflowScript
