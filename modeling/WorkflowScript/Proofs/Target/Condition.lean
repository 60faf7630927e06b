import WorkflowScript.Proofs.Expression.Spelling
import WorkflowScript.Proofs.Target.Reading
import WorkflowScript.Target.Expression

/-!
# Generated conditions mean what the source says

`Condition.meaning` is the operator tree of a condition: its layers as binary
operators that group from the left, and its brackets gone. `Condition.target`
is the same tree with the brackets of the target code. The latter is proper,
so the reader finds it in the generated text, and without its brackets it is
the former (`Condition.read_generate`).
-/

namespace WorkflowScript

open WorkflowScript.Target (Tree)

/-! ## Operators -/

def AddOp.operator : AddOp → Target.Operator
  | .plus => .plus
  | .minus => .minus

def MulOp.operator : MulOp → Target.Operator
  | .times => .times
  | .divide => .divide

def RelOp.operator : RelOp → Target.Operator
  | .greater => .greater
  | .less => .less
  | .equal => .equal

/-! ## Meaning -/

mutual

def Condition.meaning : Condition → Tree
  | ⟨first, rest⟩ => meaningOfAlternatives first.meaning rest

/-- The alternatives behind a left operand. -/
def meaningOfAlternatives (left : Tree) : List Conjunction → Tree
  | [] => left
  | c :: cs => meaningOfAlternatives (.binary .or left c.meaning) cs

def Conjunction.meaning : Conjunction → Tree
  | ⟨first, rest⟩ => meaningOfConjuncts first.meaning rest

def meaningOfConjuncts (left : Tree) : List Clause → Tree
  | [] => left
  | c :: cs => meaningOfConjuncts (.binary .and left c.meaning) cs

def Clause.meaning : Clause → Tree
  | ⟨true, relation⟩ => .not relation.meaning
  | ⟨false, relation⟩ => relation.meaning

def Relation.meaning : Relation → Tree
  | ⟨left, none⟩ => left.meaning
  | ⟨left, some (op, right)⟩ => .binary op.operator left.meaning right.meaning

def Expression.meaning : Expression → Tree
  | ⟨first, rest⟩ => meaningOfAddends first.meaning rest

def meaningOfAddends (left : Tree) : List (AddOp × Term) → Tree
  | [] => left
  | (op, t) :: rest => meaningOfAddends (.binary op.operator left t.meaning) rest

def Term.meaning : Term → Tree
  | ⟨first, rest⟩ => meaningOfMultipliers first.meaning rest

def meaningOfMultipliers (left : Tree) : List (MulOp × Factor) → Tree
  | [] => left
  | (op, f) :: rest => meaningOfMultipliers (.binary op.operator left f.meaning) rest

def Factor.meaning : Factor → Tree
  | .variable name _ => .name name
  | .call call => call.meaning
  | .integer text => .number text
  | .string text => .string text
  | .bool value => .bool value
  | .group inner => inner.meaning

def Call.meaning : Call → Tree
  | ⟨name, args, _⟩ => .call (.name name) (meaningOfArguments args)

def meaningOfArguments : List Expression → List Tree
  | [] => []
  | e :: es => e.meaning :: meaningOfArguments es

end

/-! ## Target trees -/

/-- The tree, in brackets if `bracket` is set. -/
def parenIf (bracket : Bool) (t : Tree) : Tree := if bracket then .paren t else t

mutual

def Condition.target : Condition → Tree
  | ⟨first, rest⟩ => targetOfAlternatives first.target rest

def targetOfAlternatives (left : Tree) : List Conjunction → Tree
  | [] => left
  | c :: cs => targetOfAlternatives (.binary .or left c.target) cs

def Conjunction.target : Conjunction → Tree
  | ⟨first, rest⟩ => targetOfConjuncts first.target rest

def targetOfConjuncts (left : Tree) : List Clause → Tree
  | [] => left
  | c :: cs => targetOfConjuncts (.binary .and left c.target) cs

def Clause.target : Clause → Tree
  | ⟨true, relation⟩ => .not (.paren relation.target)
  | ⟨false, relation⟩ => relation.target

def Relation.target : Relation → Tree
  | ⟨left, none⟩ => left.target
  | ⟨left, some (op, right)⟩ => .binary op.operator left.target right.target

def Expression.target : Expression → Tree
  | ⟨first, rest⟩ => parenIf (!rest.isEmpty) (targetOfAddends first.target rest)

def targetOfAddends (left : Tree) : List (AddOp × Term) → Tree
  | [] => left
  | (op, t) :: rest => targetOfAddends (.binary op.operator left t.target) rest

def Term.target : Term → Tree
  | ⟨first, rest⟩ => parenIf (!rest.isEmpty) (targetOfMultipliers first.target rest)

def targetOfMultipliers (left : Tree) : List (MulOp × Factor) → Tree
  | [] => left
  | (op, f) :: rest => targetOfMultipliers (.binary op.operator left f.target) rest

def Factor.target : Factor → Tree
  | .variable name _ => .name name
  | .call call => call.target
  | .integer text => .number text
  | .string text => .string text
  | .bool value => .bool value
  | .group inner => .paren inner.target

def Call.target : Call → Tree
  | ⟨name, args, _⟩ => .call (.name name) (targetOfArguments args)

def targetOfArguments : List Expression → List Tree
  | [] => []
  | e :: es => e.target :: targetOfArguments es

end

/-! ## Presentations -/

/-- A proper tree of a rank that has this text, and this meaning once its
brackets are gone. -/
structure Presents (t : Tree) (text : String) (meaning : Tree) (rank : Nat) : Prop where
  proper : t.Proper
  wellSpelled : t.WellSpelled
  rank_le : t.rank ≤ rank
  text_eq : t.text = text
  erase_eq : t.erase = meaning

namespace Presents

variable {t left right m m' : Tree} {text text' : String} {rank rank' : Nat}

theorem looser (h : Presents t text m rank) (hle : rank ≤ rank') : Presents t text m rank' :=
  ⟨h.proper, h.wellSpelled, Nat.le_trans h.rank_le hle, h.text_eq, h.erase_eq⟩

theorem binary (op : Target.Operator) (hleft : Presents left text m rank)
    (hright : Presents right text' m' rank') (hrank : rank ≤ op.rank) (hrank' : rank' < op.rank) :
    Presents (.binary op left right) (text ++ op.symbol ++ text') (.binary op m m') op.rank where
  proper := ⟨Nat.le_trans hleft.rank_le hrank, Nat.lt_of_le_of_lt hright.rank_le hrank',
    hleft.proper, hright.proper⟩
  wellSpelled := ⟨hleft.wellSpelled, hright.wellSpelled⟩
  rank_le := Nat.le_refl _
  text_eq := by rw [Tree.text, hleft.text_eq, hright.text_eq]
  erase_eq := by rw [Tree.erase, hleft.erase_eq, hright.erase_eq]

/-- Brackets make a tree tight and change nothing of its meaning. -/
theorem paren (h : Presents t text m rank) : Presents (.paren t) ("(" ++ text ++ ")") m 0 where
  proper := h.proper
  wellSpelled := h.wellSpelled
  rank_le := Nat.le_refl _
  text_eq := by rw [Tree.text, h.text_eq]
  erase_eq := h.erase_eq

theorem not (h : Presents t text m 0) : Presents (.not t) ("!" ++ text) (.not m) 1 where
  proper := ⟨Nat.le_trans h.rank_le (Nat.zero_le 1), h.proper⟩
  wellSpelled := h.wellSpelled
  rank_le := Nat.le_refl _
  text_eq := by rw [Tree.text, h.text_eq]
  erase_eq := by rw [Tree.erase, h.erase_eq]

/-- Brackets stand where they are needed at least. -/
theorem parenIf {bracket : Bool} (h : Presents t text m rank)
    (hrank : bracket = false → rank = 0) :
    Presents (WorkflowScript.parenIf bracket t) (wrapIf bracket text) m 0 := by
  cases bracket with
  | true => exact h.paren
  | false => exact h.looser (Nat.le_of_eq (hrank rfl))

end Presents

mutual

theorem Condition.presents : (c : Condition) → c.WellSpelled →
    Presents c.target (c.generate .verbatim) c.meaning 7
  | ⟨first, rest⟩, h => by
      rw [Condition.generate]
      exact presents_alternatives rest h.2 ((first.presents h.1).looser (by decide))

theorem presents_alternatives : (cs : List Conjunction) → WellSpelledConjunctions cs →
    ∀ {left text m}, Presents left text m 7 →
      Presents (targetOfAlternatives left cs) (text ++ generateAlternatives .verbatim cs)
        (meaningOfAlternatives m cs) 7
  | [], _, left, text, m, hleft => by
      rwa [generateAlternatives, String.append_empty]
  | c :: cs, h, left, text, m, hleft => by
      have hfirst := hleft.binary .or (c.presents h.1) (by decide) (by decide)
      have hrest := presents_alternatives cs h.2 hfirst
      simp only [generateAlternatives, ← String.append_assoc]
      exact hrest

theorem Conjunction.presents : (c : Conjunction) → c.WellSpelled →
    Presents c.target (c.generate .verbatim) c.meaning 6
  | ⟨first, rest⟩, h => by
      rw [Conjunction.generate]
      exact presents_conjuncts rest h.2 ((first.presents h.1).looser (by decide))

theorem presents_conjuncts : (cs : List Clause) → WellSpelledClauses cs →
    ∀ {left text m}, Presents left text m 6 →
      Presents (targetOfConjuncts left cs) (text ++ generateConjuncts .verbatim cs)
        (meaningOfConjuncts m cs) 6
  | [], _, left, text, m, hleft => by
      rwa [generateConjuncts, String.append_empty]
  | c :: cs, h, left, text, m, hleft => by
      have hfirst := hleft.binary .and (c.presents h.1) (by decide) (by decide)
      have hrest := presents_conjuncts cs h.2 hfirst
      simp only [generateConjuncts, ← String.append_assoc]
      exact hrest

/-- A negation brackets its whole relation. -/
theorem Clause.presents : (c : Clause) → c.WellSpelled →
    Presents c.target (c.generate .verbatim) c.meaning 5
  | ⟨true, r⟩, h => by
      have hnot := (r.presents h).paren.not
      have htext : Clause.generate .verbatim ⟨true, r⟩ =
          "!" ++ ("(" ++ r.generate .verbatim ++ ")") := by
        rw [Clause.generate, ← String.append_assoc, ← String.append_assoc]
        rfl
      rw [htext]
      exact hnot.looser (by decide)
  | ⟨false, r⟩, h => by
      rw [Clause.generate]
      exact r.presents h

theorem Relation.presents : (r : Relation) → r.WellSpelled →
    Presents r.target (r.generate .verbatim) r.meaning 5
  | ⟨left, none⟩, h => by
      rw [Relation.generate]
      exact (left.presents h).looser (by decide)
  | ⟨left, some (op, right)⟩, h => by
      have hop : op.operator.symbol = op.targetSymbol ∧ 4 ≤ op.operator.rank ∧
          op.operator.rank ≤ 5 := by
        cases op <;> decide
      have hbinary := (left.presents h.1).binary op.operator (right.presents h.2)
        (Nat.zero_le _) (by omega)
      rw [Relation.generate, ← hop.1]
      exact hbinary.looser hop.2.2

/-- One operand stands as it is, and more of them in brackets. -/
theorem Expression.presents : (e : Expression) → e.WellSpelled →
    Presents e.target (e.generate .verbatim) e.meaning 0
  | ⟨first, []⟩, h => by
      have hfirst := first.presents h.1
      rw [Expression.generate, generateAddends, String.append_empty]
      exact hfirst.parenIf fun _ => rfl
  | ⟨first, x :: rest⟩, h => by
      have hsum := presents_addends (x :: rest) h.2 ((first.presents h.1).looser (by decide))
      rw [Expression.generate]
      exact hsum.parenIf nofun

theorem presents_addends : (ts : List (AddOp × Term)) → WellSpelledAddends ts →
    ∀ {left text m}, Presents left text m 3 →
      Presents (targetOfAddends left ts) (text ++ generateAddends .verbatim ts)
        (meaningOfAddends m ts) 3
  | [], _, left, text, m, hleft => by
      rwa [generateAddends, String.append_empty]
  | (op, t) :: ts, h, left, text, m, hleft => by
      have hop : op.operator.symbol = op.symbol ∧ op.operator.rank = 3 := by
        cases op <;> decide
      have hfirst := hleft.binary op.operator (t.presents h.1) (Nat.le_of_eq hop.2.symm)
        (by omega)
      have hrest := presents_addends ts h.2 (hfirst.looser (Nat.le_of_eq hop.2))
      simp only [generateAddends, ← String.append_assoc, ← hop.1]
      exact hrest

theorem Term.presents : (t : Term) → t.WellSpelled →
    Presents t.target (t.generate .verbatim) t.meaning 0
  | ⟨first, []⟩, h => by
      have hfirst := first.presents h.1
      rw [Term.generate, generateMultipliers, String.append_empty]
      exact hfirst.parenIf fun _ => rfl
  | ⟨first, x :: rest⟩, h => by
      have hproduct := presents_multipliers (x :: rest) h.2
        ((first.presents h.1).looser (by decide))
      rw [Term.generate]
      exact hproduct.parenIf nofun

theorem presents_multipliers : (fs : List (MulOp × Factor)) → WellSpelledMultipliers fs →
    ∀ {left text m}, Presents left text m 2 →
      Presents (targetOfMultipliers left fs) (text ++ generateMultipliers .verbatim fs)
        (meaningOfMultipliers m fs) 2
  | [], _, left, text, m, hleft => by
      rwa [generateMultipliers, String.append_empty]
  | (op, f) :: fs, h, left, text, m, hleft => by
      have hop : op.operator.symbol = op.symbol ∧ op.operator.rank = 2 := by
        cases op <;> decide
      have hfirst := hleft.binary op.operator (f.presents h.1) (Nat.le_of_eq hop.2.symm)
        (by omega)
      have hrest := presents_multipliers fs h.2 (hfirst.looser (Nat.le_of_eq hop.2))
      simp only [generateMultipliers, ← String.append_assoc, ← hop.1]
      exact hrest

theorem Factor.presents : (f : Factor) → f.WellSpelled →
    Presents f.target (f.generate .verbatim) f.meaning 0
  | .variable name _, h => ⟨trivial, h, Nat.le_refl _, rfl, rfl⟩
  | .call c, h => by
      rw [Factor.generate]
      exact c.presents h
  | .integer text, h => ⟨trivial, h, Nat.le_refl _, rfl, rfl⟩
  | .string text, h => ⟨trivial, h, Nat.le_refl _, rfl, rfl⟩
  | .bool true, _ => ⟨trivial, trivial, Nat.le_refl _, rfl, rfl⟩
  | .bool false, _ => ⟨trivial, trivial, Nat.le_refl _, rfl, rfl⟩
  | .group inner, h => by
      rw [Factor.generate]
      exact (inner.presents h).paren

theorem Call.presents : (c : Call) → c.WellSpelled →
    Presents c.target (c.generate .verbatim) c.meaning 0
  | ⟨name, [], _⟩, h =>
      ⟨⟨rfl, trivial, trivial⟩, ⟨h.1, trivial⟩, Nat.le_refl _, rfl, rfl⟩
  | ⟨name, first :: rest, _⟩, h => by
      have hfirst := first.presents h.2.1
      obtain ⟨hproper, hspelled, htext, herase⟩ := presents_arguments rest h.2.2
      refine ⟨⟨rfl, trivial, hfirst.proper, hproper⟩, ⟨h.1, hfirst.wellSpelled, hspelled⟩,
        Nat.le_refl _, ?_, ?_⟩
      · simp only [Call.target, targetOfArguments, Tree.text, hfirst.text_eq, htext, Call.generate]
      · simp only [Call.target, targetOfArguments, Tree.erase, Target.eraseAll, hfirst.erase_eq,
          herase, Call.meaning, meaningOfArguments]

theorem presents_arguments : (es : List Expression) → WellSpelledArguments es →
    Target.ProperArguments (targetOfArguments es) ∧
      Target.WellSpelledTrees (targetOfArguments es) ∧
      Target.textOfMore (targetOfArguments es) = generateArguments .verbatim es ∧
      Target.eraseAll (targetOfArguments es) = meaningOfArguments es
  | [], _ => ⟨trivial, trivial, rfl, rfl⟩
  | e :: es, h => by
      have hfirst := e.presents h.1
      obtain ⟨hproper, hspelled, htext, herase⟩ := presents_arguments es h.2
      refine ⟨⟨hfirst.proper, hproper⟩, ⟨hfirst.wellSpelled, hspelled⟩, ?_, ?_⟩
      · simp only [targetOfArguments, Target.textOfMore, hfirst.text_eq, htext, generateArguments]
      · simp only [targetOfArguments, Target.eraseAll, hfirst.erase_eq, herase, meaningOfArguments]

end

/-! ## The reader of the target language -/

/-- The generated text of a well-spelled condition is read to its last
character, and without its brackets the tree that is read is the meaning of
the condition. -/
theorem Condition.read_generate (c : Condition) (h : c.WellSpelled) :
    ∃ t, Target.read (c.generate .verbatim) = some t ∧ t.erase = c.meaning := by
  have hc := c.presents h
  refine ⟨c.target, ?_, hc.erase_eq⟩
  rw [← hc.text_eq]
  exact Target.read_text hc.proper hc.wellSpelled

/-- `not a - 1 < b` negates the comparison, and compares the difference. -/
theorem read_negated_comparison :
    ∃ t, Target.read "!((a-1)<b)" = some t ∧
      t.erase = .not (.binary .less (.binary .minus (.name "a") (.number "1")) (.name "b")) := by
  let difference : Expression :=
    ⟨⟨.variable "a" .start, []⟩, [(.minus, ⟨.integer "1", []⟩)]⟩
  let comparison : Relation := ⟨difference, some (.less, (Factor.variable "b" .start).toExpression)⟩
  have ha : Lexical.isName "a" := by decide
  have hb : Lexical.isName "b" := by decide
  have hdigits : Lexical.isDigits "1" := by decide
  exact Condition.read_generate ⟨⟨⟨true, comparison⟩, []⟩, []⟩
    ⟨⟨⟨⟨⟨ha, trivial⟩, ⟨hdigits, trivial⟩, trivial⟩, ⟨hb, trivial⟩, trivial⟩, trivial⟩, trivial⟩

end WorkflowScript
