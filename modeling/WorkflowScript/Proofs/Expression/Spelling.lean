import WorkflowScript.Proofs.Expression.Derivation
import WorkflowScript.Proofs.Token.Spelling

/-!
# Spelling of names and literals in expressions

A tree is well spelled if every variable and every called function has a
name that the scanner would read as one, and every integer and string has
the text of one. Trees of derivations are, as long as the tokens are.
-/

namespace WorkflowScript

open WorkflowScript.Lexical

/-! ## Well-spelled trees -/

mutual

def Condition.WellSpelled : Condition → Prop
  | ⟨first, rest⟩ => first.WellSpelled ∧ WellSpelledConjunctions rest

def WellSpelledConjunctions : List Conjunction → Prop
  | [] => True
  | c :: cs => c.WellSpelled ∧ WellSpelledConjunctions cs

def Conjunction.WellSpelled : Conjunction → Prop
  | ⟨first, rest⟩ => first.WellSpelled ∧ WellSpelledClauses rest

def WellSpelledClauses : List Clause → Prop
  | [] => True
  | c :: cs => c.WellSpelled ∧ WellSpelledClauses cs

def Clause.WellSpelled : Clause → Prop
  | ⟨_, relation⟩ => relation.WellSpelled

def Relation.WellSpelled : Relation → Prop
  | ⟨left, none⟩ => left.WellSpelled
  | ⟨left, some (_, right)⟩ => left.WellSpelled ∧ right.WellSpelled

def Expression.WellSpelled : Expression → Prop
  | ⟨first, rest⟩ => first.WellSpelled ∧ WellSpelledAddends rest

def WellSpelledAddends : List (AddOp × Term) → Prop
  | [] => True
  | (_, t) :: rest => t.WellSpelled ∧ WellSpelledAddends rest

def Term.WellSpelled : Term → Prop
  | ⟨first, rest⟩ => first.WellSpelled ∧ WellSpelledMultipliers rest

def WellSpelledMultipliers : List (MulOp × Factor) → Prop
  | [] => True
  | (_, f) :: rest => f.WellSpelled ∧ WellSpelledMultipliers rest

def Factor.WellSpelled : Factor → Prop
  | .variable name _ => isName name
  | .call call => call.WellSpelled
  | .integer text => isDigits text
  | .string text => isQuoted text
  | .bool _ => True
  | .group inner => inner.WellSpelled

def Call.WellSpelled : Call → Prop
  | ⟨name, args, _⟩ => isName name ∧ WellSpelledArguments args

def WellSpelledArguments : List Expression → Prop
  | [] => True
  | e :: es => e.WellSpelled ∧ WellSpelledArguments es

end

/-! ## Trees of derivations -/

namespace Grammar.ExpressionSymbol

def WellSpelled : (s : ExpressionSymbol) → s.Tree → Prop
  | condition, c => c.WellSpelled
  | alternatives, cs => WellSpelledConjunctions cs
  | conjunction, c => c.WellSpelled
  | conjuncts, cs => WellSpelledClauses cs
  | clause, c => c.WellSpelled
  | relation, r => r.WellSpelled
  | expression, e => e.WellSpelled
  | addends, ts => WellSpelledAddends ts
  | term, t => t.WellSpelled
  | multipliers, fs => WellSpelledMultipliers fs
  | factor, f => f.WellSpelled
  | call, c => c.WellSpelled
  | arguments, es => WellSpelledArguments es
  | moreArguments, es => WellSpelledArguments es

/-- Well-spelled tokens stand for a well-spelled tree. -/
theorem Derives.wellSpelled {s : ExpressionSymbol} {ts : List Token} {t : s.Tree}
    (h : s.Derives ts t) (hts : ∀ x ∈ ts, x.WellSpelled) : s.WellSpelled t := by
  induction h with
  | noAlternative | noConjunct | noAddend | noMultiplier | noArguments | noMoreArguments =>
      exact trivial
  | true | false => exact trivial
  | variableFactor hk | integer hk | string hk =>
      have hx := hts _ (List.mem_singleton_self _)
      rwa [Token.WellSpelled, hk] at hx
  | clause _ ih | relation _ ih | callFactor _ ih => exact ih hts
  | negation _ _ ih => exact ih fun x hx => hts x (List.mem_cons_of_mem _ hx)
  | group _ _ _ ih => exact ih fun x hx => hts x (by simp [hx])
  | call hk _ ih =>
      have hname := (hts _ (List.mem_cons_self ..)).isName hk
      exact ⟨hname, ih fun x hx => hts x (List.mem_cons_of_mem _ hx)⟩
  | condition _ _ ih ih' | conjunction _ _ ih ih' | expression _ _ ih ih' | term _ _ ih ih' =>
      exact ⟨ih fun x hx => hts x (by simp [hx]), ih' fun x hx => hts x (by simp [hx])⟩
  | alternative _ _ _ ih ih' | conjunct _ _ _ ih ih' | addend _ _ _ ih ih'
  | multiplier _ _ _ ih ih' | moreArguments _ _ _ ih ih' | arguments _ _ _ _ ih ih' =>
      exact ⟨ih fun x hx => hts x (by simp [hx]), ih' fun x hx => hts x (by simp [hx])⟩
  | comparison _ _ _ ih ih' =>
      exact ⟨ih fun x hx => hts x (by simp [hx]), ih' fun x hx => hts x (by simp [hx])⟩

end Grammar.ExpressionSymbol

end WorkflowScript
