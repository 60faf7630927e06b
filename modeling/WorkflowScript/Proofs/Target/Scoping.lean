import WorkflowScript.Proofs.Transform.Answers
import WorkflowScript.Target.Pieces

/-!
# Names that target code depends on

The resolver has a say in the free variables of a script and in nothing
else: the code is what its pieces make (`generateScript_eq`), and of these
only the free variables look at the resolver. So two resolvers that agree on
the free variables give the same code, and one that leaves them alone gives
the code in which every name stands for itself
(`generate_depends_on_free_names`).

Definitions are what binds names. In the code of a definition the resolver
is asked within its parameters, and resolvers within resolvers come down to
one within the parameters of all (`Resolver.foldl_within`).
-/

namespace WorkflowScript

/-! ## Resolvers within resolvers -/

namespace Resolver

variable (names : Resolver)

theorem within_nil : names.within [] = names := by
  funext name
  simp [within]

theorem within_within (outer inner : List String) :
    (names.within outer).within inner = names.within (inner ++ outer) := by
  funext name
  by_cases hinner : name ∈ inner
  · simp [within, hinner]
  · simp [within, hinner]

/-- The order in which names are bound does not matter. -/
theorem within_congr {bound bound' : List String} (h : ∀ x, x ∈ bound ↔ x ∈ bound') :
    names.within bound = names.within bound' := by
  funext name
  simp only [within, List.contains_iff_mem, h]

theorem foldl_within (nest : List (List String)) :
    nest.foldl within names = names.within nest.flatten := by
  induction nest generalizing names with
  | nil => exact (within_nil names).symm
  | cons bound nest ih =>
      rw [List.foldl_cons, ih, within_within]
      exact within_congr names fun x => by simp [or_comm]

end Resolver

/-! ## Writing pieces -/

section Writing

variable (names : Resolver)

@[simp] theorem writePieces_nil : writePieces names [] = "" := rfl

@[simp] theorem writePieces_cons (p : Piece) (ps : List Piece) :
    writePieces names (p :: ps) = p.written names ++ writePieces names ps := by
  simp only [writePieces, List.map_cons, String.join_cons]

@[simp] theorem writePieces_append (ps qs : List Piece) :
    writePieces names (ps ++ qs) = writePieces names ps ++ writePieces names qs := by
  induction ps with
  | nil => simp
  | cons p ps ih => simp only [List.cons_append, writePieces_cons, ih, String.append_assoc]

@[simp] theorem written_text (content : String) : (Piece.text content).written names = content :=
  rfl

@[simp] theorem writePieces_wrapPiecesIf (bracket : Bool) (ps : List Piece) :
    writePieces names (wrapPiecesIf bracket ps) = wrapIf bracket (writePieces names ps) := by
  cases bracket with
  | true => simp [wrapPiecesIf, wrapIf, String.append_assoc]
  | false => rfl

variable (use : NameUse) (name : String) (bound : List String)

/-- A variable is resolved within the parameters around it. -/
theorem target_of_variable (h : use.ofVariable = true) :
    Occurrence.target names ⟨use, name, bound⟩ = names.within bound name := by
  by_cases hbound : name ∈ bound
  · simp [Occurrence.target, Occurrence.Free, Resolver.within, hbound]
  · simp [Occurrence.target, Occurrence.Free, Resolver.within, hbound, h]

theorem written_of_variable (h : use.ofVariable = true) :
    (Piece.name ⟨use, name, bound⟩).written names =
      (if use = .declared ∧ names.within bound name = name then "var " else "") ++
        names.within bound name := by
  simp only [Piece.written, Occurrence.written, target_of_variable names use name bound h]

/-- All other names are written as they are. -/
theorem written_of_other (h : use.ofVariable = false) :
    (Piece.name ⟨use, name, bound⟩).written names = name := by
  have hfree : ¬ Occurrence.Free ⟨use, name, bound⟩ := by simp [Occurrence.Free, h]
  have hdeclared : use ≠ .declared := by
    rintro rfl
    cases h
  simp [Piece.written, Occurrence.written, Occurrence.target, hfree, hdeclared]

end Writing

/-! ## The pieces make the code -/

section Code

variable (names : Resolver) (bound : List String)

mutual

theorem Condition.write_pieces : (c : Condition) →
    writePieces names (c.pieces bound) = c.generate (names.within bound)
  | ⟨first, rest⟩ => by
      rw [Condition.pieces, writePieces_append, first.write_pieces, write_piecesOfAlternatives rest,
        Condition.generate]

theorem write_piecesOfAlternatives : (cs : List Conjunction) →
    writePieces names (piecesOfAlternatives bound cs) =
      generateAlternatives (names.within bound) cs
  | [] => rfl
  | c :: cs => by
      simp only [piecesOfAlternatives, writePieces_append, writePieces_cons, written_text,
        c.write_pieces, write_piecesOfAlternatives cs, generateAlternatives]

theorem Conjunction.write_pieces : (c : Conjunction) →
    writePieces names (c.pieces bound) = c.generate (names.within bound)
  | ⟨first, rest⟩ => by
      rw [Conjunction.pieces, writePieces_append, first.write_pieces, write_piecesOfConjuncts rest,
        Conjunction.generate]

theorem write_piecesOfConjuncts : (cs : List Clause) →
    writePieces names (piecesOfConjuncts bound cs) = generateConjuncts (names.within bound) cs
  | [] => rfl
  | c :: cs => by
      simp only [piecesOfConjuncts, writePieces_append, writePieces_cons, written_text,
        c.write_pieces, write_piecesOfConjuncts cs, generateConjuncts]

theorem Clause.write_pieces : (c : Clause) →
    writePieces names (c.pieces bound) = c.generate (names.within bound)
  | ⟨true, relation⟩ => by
      simp only [Clause.pieces, writePieces_append, writePieces_cons, writePieces_nil,
        written_text, relation.write_pieces, Clause.generate, String.append_empty]
  | ⟨false, relation⟩ => relation.write_pieces

theorem Relation.write_pieces : (r : Relation) →
    writePieces names (r.pieces bound) = r.generate (names.within bound)
  | ⟨left, none⟩ => left.write_pieces
  | ⟨left, some (op, right)⟩ => by
      simp only [Relation.pieces, writePieces_append, writePieces_cons, written_text,
        left.write_pieces, right.write_pieces, Relation.generate, String.append_assoc]

theorem Expression.write_pieces : (e : Expression) →
    writePieces names (e.pieces bound) = e.generate (names.within bound)
  | ⟨first, rest⟩ => by
      rw [Expression.pieces, writePieces_wrapPiecesIf, writePieces_append, first.write_pieces,
        write_piecesOfAddends rest, Expression.generate]

theorem write_piecesOfAddends : (rest : List (AddOp × Term)) →
    writePieces names (piecesOfAddends bound rest) = generateAddends (names.within bound) rest
  | [] => rfl
  | (op, t) :: rest => by
      simp only [piecesOfAddends, writePieces_append, writePieces_cons, written_text,
        t.write_pieces, write_piecesOfAddends rest, generateAddends]

theorem Term.write_pieces : (t : Term) →
    writePieces names (t.pieces bound) = t.generate (names.within bound)
  | ⟨first, rest⟩ => by
      rw [Term.pieces, writePieces_wrapPiecesIf, writePieces_append, first.write_pieces,
        write_piecesOfMultipliers rest, Term.generate]

theorem write_piecesOfMultipliers : (rest : List (MulOp × Factor)) →
    writePieces names (piecesOfMultipliers bound rest) =
      generateMultipliers (names.within bound) rest
  | [] => rfl
  | (op, f) :: rest => by
      simp only [piecesOfMultipliers, writePieces_append, writePieces_cons, written_text,
        f.write_pieces, write_piecesOfMultipliers rest, generateMultipliers]

theorem Factor.write_pieces : (f : Factor) →
    writePieces names (f.pieces bound) = f.generate (names.within bound)
  | .variable name _ => by
      rw [Factor.pieces, writePieces_cons, written_of_variable names .read name bound rfl]
      simp [Factor.generate]
  | .call call => call.write_pieces
  | .integer _ | .string _ => by simp [Factor.pieces, Factor.generate]
  | .bool value => by cases value <;> simp [Factor.pieces, Factor.generate]
  | .group inner => by
      simp only [Factor.pieces, writePieces_append, writePieces_cons, writePieces_nil,
        written_text, inner.write_pieces, Factor.generate, String.append_empty]

theorem Call.write_pieces : (c : Call) →
    writePieces names (c.pieces bound) = c.generate (names.within bound)
  | ⟨name, [], _⟩ => by
      simp only [Call.pieces, writePieces_cons, writePieces_nil, written_text,
        written_of_other names .callee name bound rfl, Call.generate, String.append_empty]
  | ⟨name, first :: rest, _⟩ => by
      simp only [Call.pieces, writePieces_append, writePieces_cons, writePieces_nil,
        written_text, written_of_other names .callee name bound rfl, first.write_pieces,
        write_piecesOfArguments rest, Call.generate, String.append_empty, String.append_assoc]

theorem write_piecesOfArguments : (es : List Expression) →
    writePieces names (piecesOfArguments bound es) = generateArguments (names.within bound) es
  | [] => rfl
  | e :: es => by
      simp only [piecesOfArguments, writePieces_append, writePieces_cons, written_text,
        e.write_pieces, write_piecesOfArguments es, generateArguments]

end

theorem Declaration.write_pieces (d : Declaration) :
    writePieces names (d.pieces bound) = d.generate (names.within bound) := by
  simp only [Declaration.pieces, writePieces_cons, written_text,
    written_of_variable names .declared d.name bound rfl, d.value.write_pieces,
    Declaration.generate, true_and, String.append_assoc]

theorem Assignment.write_pieces (a : Assignment) :
    writePieces names (a.pieces bound) = a.generate (names.within bound) := by
  rw [Assignment.pieces, writePieces_cons, written_of_variable names .assigned a.name bound rfl]
  simp [Assignment.generate, a.value.write_pieces, String.append_assoc]

theorem write_piecesOfReturns (returns : Option Expression) :
    writePieces names (piecesOfReturns bound returns) =
      generateReturns (names.within bound) returns := by
  cases returns with
  | none => rfl
  | some value =>
      simp only [piecesOfReturns, writePieces_append, writePieces_cons, writePieces_nil,
        written_text, value.write_pieces, generateReturns, String.append_empty]

theorem write_piecesOfParameters (params : List String) :
    writePieces names (piecesOfParameters bound params) = ",".intercalate params := by
  have hname name := written_of_other names .parameter name bound rfl
  cases params with
  | nil => rfl
  | cons first rest =>
      rw [piecesOfParameters, writePieces_cons, hname, Transform.intercalate_cons]
      congr 1
      induction rest with
      | nil => rfl
      | cons name rest ih => simp [hname, ih, String.append_assoc]

mutual

theorem Statement.write_pieces (bound : List String) : (s : Statement) →
    writePieces names (s.pieces bound) = s.generate (names.within bound)
  | .definition d => d.write_pieces bound
  | .declaration d => by
      simp only [Statement.pieces, writePieces_append, writePieces_cons, writePieces_nil,
        written_text, d.write_pieces, Statement.generate, String.append_empty]
  | .assignment a => by
      simp only [Statement.pieces, writePieces_append, writePieces_cons, writePieces_nil,
        written_text, a.write_pieces, Statement.generate, String.append_empty]
  | .conditional c => c.write_pieces bound
  | .loop l => l.write_pieces bound
  | .call c => by
      simp only [Statement.pieces, writePieces_append, writePieces_cons, writePieces_nil,
        written_text, c.write_pieces, Statement.generate, String.append_empty]

/-- Within a definition its parameters join those around it. -/
theorem Definition.write_pieces (bound : List String) : (d : Definition) →
    writePieces names (d.pieces bound) = d.generate (names.within bound)
  | ⟨name, params, body, returns, _⟩ => by
      simp only [Definition.pieces, writePieces_append, writePieces_cons, writePieces_nil,
        written_text, written_of_other names .function name bound rfl, write_piecesOfParameters,
        write_piecesOfScript _ body, write_piecesOfReturns, Definition.generate,
        Resolver.within_within, String.append_empty, String.append_assoc]

theorem Conditional.write_pieces (bound : List String) : (c : Conditional) →
    writePieces names (c.pieces bound) = c.generate (names.within bound)
  | ⟨condition, body, _⟩ => by
      simp only [Conditional.pieces, writePieces_append, writePieces_cons, writePieces_nil,
        written_text, condition.write_pieces, write_piecesOfScript bound body,
        Conditional.generate, String.append_empty, String.append_assoc]

theorem Loop.write_pieces (bound : List String) : (l : Loop) →
    writePieces names (l.pieces bound) = l.generate (names.within bound)
  | ⟨init, condition, step, body, _⟩ => by
      simp only [Loop.pieces, writePieces_append, writePieces_cons, writePieces_nil, written_text,
        init.write_pieces, condition.write_pieces, step.write_pieces,
        write_piecesOfScript bound body, Loop.generate, String.append_empty, String.append_assoc]

theorem write_piecesOfScript (bound : List String) : (ss : List Statement) →
    writePieces names (piecesOfScript bound ss) = generateScript (names.within bound) ss
  | [] => rfl
  | s :: ss => by
      rw [piecesOfScript, writePieces_append, s.write_pieces bound, write_piecesOfScript bound ss,
        generateScript]

end

end Code

theorem generateScript_eq (names : Resolver) (ss : List Statement) :
    generateScript names ss = writePieces names (piecesOfScript [] ss) := by
  rw [write_piecesOfScript, Resolver.within_nil]

/-! ## The free names decide -/

theorem Piece.written_congr {names names' : Resolver} {p : Piece}
    (h : ∀ x ∈ p.free?, names x = names' x) : p.written names = p.written names' := by
  cases p with
  | text _ => rfl
  | name o =>
      have htarget : o.target names = o.target names' := by
        by_cases hfree : o.Free
        · simpa [Occurrence.target, hfree] using h o.name (by simp [Piece.free?, hfree])
        · simp [Occurrence.target, hfree]
      simp only [Piece.written, Occurrence.written, htarget]

theorem generateScript_congr {names names' : Resolver} {ss : List Statement}
    (h : ∀ x ∈ freeNames ss, names x = names' x) :
    generateScript names ss = generateScript names' ss := by
  rw [generateScript_eq, generateScript_eq]
  refine congrArg String.join (List.map_congr_left fun p hp => Piece.written_congr fun x hx => ?_)
  exact h x (List.mem_filterMap.mpr ⟨p, hp, hx⟩)

/-- What is no free variable is written as it is. -/
theorem Occurrence.written_of_not_free {o : Occurrence} (h : ¬ o.Free) (names : Resolver) :
    o.written names = (if o.use = .declared then "var " else "") ++ o.name := by
  have htarget : o.target names = o.name := if_neg h
  simp only [Occurrence.written, htarget, and_true]

/-- The resolver decides about the free names of a script and about nothing
else.

Resolvers that agree on them give the same code. The code is put together
from pieces that are there before any name is resolved, and every name among
them that is not free comes out as it is: functions, parameters, callees, and
at every depth the variables that a parameter binds. A resolver that leaves
the free names alone might as well leave all of them alone. And parameters
bind the same names one around the other as they do together. -/
theorem generate_depends_on_free_names (ss : List Statement) :
    (∀ names names' : Resolver, (∀ x ∈ freeNames ss, names x = names' x) →
        generateScript names ss = generateScript names' ss) ∧
      (∀ names : Resolver, generateScript names ss = writePieces names (piecesOfScript [] ss)) ∧
      (∀ o, .name o ∈ piecesOfScript [] ss → ¬ o.Free → ∀ names : Resolver,
        o.written names = (if o.use = .declared then "var " else "") ++ o.name) ∧
      (∀ names : Resolver, (∀ x ∈ freeNames ss, names x = x) →
        generateScript names ss = generateScript .verbatim ss) ∧
      ∀ (names : Resolver) (nest : List (List String)),
        nest.foldl Resolver.within names = names.within nest.flatten := by
  refine ⟨fun names names' h => generateScript_congr h, fun names => generateScript_eq names ss,
    fun o _ h => Occurrence.written_of_not_free h, fun names h => ?_, Resolver.foldl_within⟩
  exact generateScript_congr h

/-- `def f(a, a) b = a def g(b) var b = 1 return f(a + b + c) end end a = g(b)` -/
def nestedDefinitions : List Statement :=
  let read (name : String) : Factor := .variable name .start
  let sum : Expression := ⟨⟨read "a", []⟩, [(.plus, ⟨read "b", []⟩), (.plus, ⟨read "c", []⟩)]⟩
  let inner : Definition := ⟨"g", ["b"],
    [.declaration ⟨"b", (Factor.integer "1").toExpression, .start⟩],
    some (Factor.call ⟨"f", [sum], .start⟩).toExpression, .start⟩
  [.definition ⟨"f", ["a", "a"],
      [.assignment ⟨"b", (read "a").toExpression, .start⟩, .definition inner], none, .start⟩,
    .assignment ⟨"a", (Factor.call ⟨"g", [(read "b").toExpression], .start⟩).toExpression, .start⟩]

/-- Two tables that differ on names that are not free. -/
theorem nestedDefinitions_code :
    let table : SymbolTable := ⟨[("a", "s.a"), ("b", "s.b")], some "v."⟩
    let other : SymbolTable := ⟨[("f", "F"), ("g", "G"), ("a", "s.a"), ("b", "s.b")], some "v."⟩
    (∀ x ∈ freeNames nestedDefinitions, table.resolve x = other.resolve x) ∧
      generateScript table.resolve nestedDefinitions =
        generateScript other.resolve nestedDefinitions ∧
      generateScript table.resolve nestedDefinitions =
        "function f(a,a)\x7bs.b=a;function g(b)\x7bvar b=1;return f((a+b+v.c));\x7d\x7d" ++
          "s.a=g(s.b);" := by
  intro table other
  have hfree : ∀ x ∈ freeNames nestedDefinitions, table.resolve x = other.resolve x := by decide
  exact ⟨hfree, (generate_depends_on_free_names nestedDefinitions).1 _ _ hfree, by decide⟩

end WorkflowScript
