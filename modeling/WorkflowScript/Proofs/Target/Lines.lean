import Mathlib.Algebra.GroupWithZero.Nat
import WorkflowScript.Proofs.Workflow.RoundTrip
import WorkflowScript.Target.Workflow

/-!
# Lines of listings

Target code is written without line feeds: the only ones in it are those of
names that the resolver brings in and those of strings, which go into it as
they stand in the source and may go over several lines there. So a listing
has, behind each of its items, one line feed, and on top of these the line
feeds of all strings of the source (`lineFeeds_render`). It has one line for
each item if and only if there is no line feed in any string.

How many line feeds the strings have is a sum over tokens, and code is
compared with the tokens it comes from rule by rule along the derivation.
-/

namespace WorkflowScript

/-! ## Counting line feeds -/

def lineFeeds (text : String) : Nat := text.toList.count '\n'

@[simp] theorem lineFeeds_append (s t : String) :
    lineFeeds (s ++ t) = lineFeeds s + lineFeeds t := by
  simp [lineFeeds]

theorem lineFeeds_join (ss : List String) :
    lineFeeds (String.join ss) = (ss.map lineFeeds).sum := by
  induction ss with
  | nil => rfl
  | cons s ss ih => rw [String.join_cons, lineFeeds_append, ih, List.map_cons, List.sum_cons]

theorem lineFeeds_eq_zero_of_all {p : Char → Bool} (hp : p '\n' = false) {text : String}
    (h : text.toList.all p) : lineFeeds text = 0 := by
  refine List.count_eq_zero.mpr fun hmem => ?_
  have := List.all_eq_true.mp h _ hmem
  rw [hp] at this
  cases this

theorem lineFeeds_name {name : String} (h : Lexical.isName name) : lineFeeds name = 0 := by
  refine lineFeeds_eq_zero_of_all (p := Lexical.isNamePart) (by decide) ?_
  simp only [Lexical.isName, Lexical.isWord, Bool.and_eq_true] at h
  obtain ⟨hword, -⟩ := h
  split at hword
  · cases hword
  · next c cs hname =>
      rw [Bool.and_eq_true] at hword
      rw [hname, List.all_cons, Bool.and_eq_true]
      exact ⟨Lexical.isNamePart_of_isNameStart hword.1, hword.2⟩

theorem lineFeeds_digits {text : String} (h : Lexical.isDigits text) : lineFeeds text = 0 := by
  rw [Lexical.isDigits, Bool.and_eq_true] at h
  exact lineFeeds_eq_zero_of_all (p := Lexical.isDigit) (by decide) h.2

@[simp] theorem lineFeeds_wrapIf (bracket : Bool) (text : String) :
    lineFeeds (wrapIf bracket text) = lineFeeds text := by
  cases bracket with
  | true =>
      have hl : lineFeeds "(" = 0 := rfl
      have hr : lineFeeds ")" = 0 := rfl
      simp [wrapIf, hl, hr]
  | false => rfl

/-- The line feeds that a token takes into target code. -/
def Token.stringFeeds (t : Token) : Nat :=
  if t.kind = .string then lineFeeds t.text else 0

/-- The line feeds of all strings among the tokens. -/
def stringFeeds (ts : List Token) : Nat := (ts.map Token.stringFeeds).sum

@[simp] theorem stringFeeds_nil : stringFeeds [] = 0 := rfl

@[simp] theorem stringFeeds_cons (t : Token) (ts : List Token) :
    stringFeeds (t :: ts) = t.stringFeeds + stringFeeds ts := rfl

@[simp] theorem stringFeeds_append (ts us : List Token) :
    stringFeeds (ts ++ us) = stringFeeds ts + stringFeeds us := by
  simp [stringFeeds]

/-- No token but a string counts. -/
theorem stringFeeds_cons_of_kind {t : Token} {k : TokenKind} (h : t.kind = k) (hk : k ≠ .string)
    (ts : List Token) : stringFeeds (t :: ts) = stringFeeds ts := by
  have hzero : t.stringFeeds = 0 := if_neg (h ▸ hk)
  rw [stringFeeds_cons, hzero, Nat.zero_add]

theorem Token.stringFeeds_eq_zero_iff {t : Token} :
    t.stringFeeds = 0 ↔ (t.kind = .string → '\n' ∉ t.text.toList) := by
  by_cases hk : t.kind = .string
  · simp [Token.stringFeeds, hk, lineFeeds, List.count_eq_zero]
  · simp [Token.stringFeeds, hk]

theorem stringFeeds_eq_zero_iff {ts : List Token} : stringFeeds ts = 0 ↔
    ∀ t ∈ ts, t.kind = .string → '\n' ∉ t.text.toList := by
  simp only [stringFeeds, List.sum_eq_zero_iff_forall_eq_nat, List.forall_mem_map,
    Token.stringFeeds_eq_zero_iff]

/-- Resolving a name brings in no line feed. -/
def Resolver.LineFree (names : Resolver) : Prop :=
  ∀ name, Lexical.isName name → '\n' ∉ (names name).toList

theorem Resolver.LineFree.count {names : Resolver} (h : names.LineFree) {name : String}
    (hname : Lexical.isName name) : (names name).toList.count '\n' = 0 :=
  List.count_eq_zero.mpr (h name hname)

theorem Resolver.lineFree_verbatim : verbatim.LineFree := fun _ hname =>
  List.count_eq_zero.mp (lineFeeds_name hname)

/-- Parameters have no line feeds either. -/
theorem Resolver.LineFree.within {names : Resolver} (h : names.LineFree) (params : List String) :
    (names.within params).LineFree := by
  intro name hname
  by_cases hbound : name ∈ params
  · simpa [Resolver.within, Resolver.verbatim, hbound] using lineFree_verbatim name hname
  · simpa [Resolver.within, hbound] using h name hname

/-! ## Expressions -/

namespace Grammar

variable {names : Resolver}

namespace ExpressionSymbol

/-- The code of what a nonterminal stands for. -/
def code (names : Resolver) : (s : ExpressionSymbol) → s.Tree → String
  | condition, c => c.generate names
  | alternatives, cs => generateAlternatives names cs
  | conjunction, c => c.generate names
  | conjuncts, cs => generateConjuncts names cs
  | clause, c => c.generate names
  | relation, r => r.generate names
  | expression, e => e.generate names
  | addends, ts => generateAddends names ts
  | term, t => t.generate names
  | multipliers, fs => generateMultipliers names fs
  | factor, f => f.generate names
  | call, c => c.generate names
  | arguments, es => (Call.mk "" es .start).generate names
  | moreArguments, es => generateArguments names es

/-- The arguments of a call are written behind its name. -/
theorem lineFeeds_call (name : String) (args : List Expression) (p : Position) :
    lineFeeds ((Call.mk name args p).generate names) =
      lineFeeds name + lineFeeds (arguments.code names args) := by
  cases args with
  | nil => simp [code, Call.generate, lineFeeds]
  | cons e es => simp [code, Call.generate, lineFeeds]

theorem Derives.lineFeeds_code {s : ExpressionSymbol} {ts : List Token} {t : s.Tree}
    (h : s.Derives ts t) (hts : ∀ x ∈ ts, x.WellSpelled) (hnames : names.LineFree) :
    lineFeeds (s.code names t) = stringFeeds ts := by
  induction h with
  | noAlternative | noConjunct | noAddend | noMultiplier | noMoreArguments => rfl
  | condition _ _ ih ih' | conjunction _ _ ih ih' | expression _ _ ih ih' | term _ _ ih ih' =>
      obtain ⟨hts, hus⟩ := List.forall_mem_append.mp hts
      rw [stringFeeds_append, ← ih hts, ← ih' hus]
      simp [code, Condition.generate, Conjunction.generate, Expression.generate, Term.generate]
  | alternative hk _ _ ih ih' | conjunct hk _ _ ih ih' | moreArguments hk _ _ ih ih' =>
      simp only [List.cons_append, List.forall_mem_cons, List.forall_mem_append] at hts
      rw [List.cons_append, stringFeeds_cons_of_kind hk (by decide), stringFeeds_append,
        ← ih hts.2.1, ← ih' hts.2.2]
      simp [code, generateAlternatives, generateConjuncts, generateArguments, lineFeeds]
  | @addend _ _ _ op _ _ hk _ _ ih ih' | @multiplier _ _ _ op _ _ hk _ _ ih ih' =>
      simp only [List.cons_append, List.forall_mem_cons, List.forall_mem_append] at hts
      rw [List.cons_append, stringFeeds_cons_of_kind hk (by cases op <;> decide),
        stringFeeds_append, ← ih hts.2.1, ← ih' hts.2.2]
      cases op <;>
        simp [code, generateAddends, generateMultipliers, lineFeeds, AddOp.symbol, MulOp.symbol]
  | clause _ ih | relation _ ih | callFactor _ ih => exact ih hts
  | negation hk _ ih =>
      obtain ⟨-, hts⟩ := List.forall_mem_cons.mp hts
      rw [stringFeeds_cons_of_kind hk (by decide), ← ih hts]
      simp [code, Clause.generate, lineFeeds]
  | @comparison _ _ _ _ op _ _ hk _ ih ih' =>
      simp only [List.forall_mem_append, List.forall_mem_cons] at hts
      rw [stringFeeds_append, stringFeeds_cons_of_kind hk (by cases op <;> decide),
        ← ih hts.1, ← ih' hts.2.2]
      cases op <;> simp [code, Relation.generate, lineFeeds, RelOp.targetSymbol]
  | variableFactor hk =>
      have hname := (hts _ (List.mem_singleton_self _)).isName hk
      rw [stringFeeds_cons_of_kind hk (by decide)]
      exact hnames.count hname
  | integer hk =>
      have hdigits := hts _ (List.mem_singleton_self _)
      rw [Token.WellSpelled, hk] at hdigits
      rw [stringFeeds_cons_of_kind hk (by decide)]
      exact lineFeeds_digits hdigits
  | string hk => simp [code, Factor.generate, Token.stringFeeds, hk]
  | true hk | false hk =>
      rw [stringFeeds_cons_of_kind hk (by decide)]
      simp [code, Factor.generate, lineFeeds]
  | group hl _ hr ih =>
      simp only [List.cons_append, List.forall_mem_cons, List.forall_mem_append] at hts
      rw [List.cons_append, stringFeeds_cons_of_kind hl (by decide), stringFeeds_append,
        stringFeeds_cons_of_kind hr (by decide), ← ih hts.2.1]
      simp [code, Factor.generate, lineFeeds]
  | call hk _ ih =>
      obtain ⟨hname, hts⟩ := List.forall_mem_cons.mp hts
      rw [stringFeeds_cons_of_kind hk (by decide), ← ih hts]
      exact (lineFeeds_call ..).trans (by rw [lineFeeds_name (hname.isName hk), Nat.zero_add])
  | noArguments hl hr =>
      rw [stringFeeds_cons_of_kind hl (by decide), stringFeeds_cons_of_kind hr (by decide)]
      simp [code, Call.generate, lineFeeds]
  | arguments hl _ _ hr ih ih' =>
      simp only [List.cons_append, List.forall_mem_cons, List.forall_mem_append] at hts
      simp only [List.cons_append, stringFeeds_cons_of_kind hl (by decide), stringFeeds_append,
        stringFeeds_cons_of_kind hr (by decide)]
      rw [← ih hts.2.1.1, ← ih' hts.2.1.2]
      simp [code, Call.generate, lineFeeds]

end ExpressionSymbol

/-! ## Statements -/

theorem DerivesAssignment.lineFeeds_generate {ts : List Token} {a : Assignment}
    (h : DerivesAssignment ts a) (hts : ∀ x ∈ ts, x.WellSpelled) (hnames : names.LineFree) :
    lineFeeds (a.generate names) = stringFeeds ts := by
  cases h with
  | assignment hname heq he =>
      simp only [List.forall_mem_cons] at hts
      rw [stringFeeds_cons_of_kind hname (by decide), stringFeeds_cons_of_kind heq (by decide),
        ← he.lineFeeds_code hts.2.2 hnames]
      have htarget := hnames.count (hts.1.isName hname)
      simp [Assignment.generate, ExpressionSymbol.code, lineFeeds, htarget]

/-- A declaration without its keyword has the code of one that has it. -/
theorem lineFeeds_declaration {name : String} {e : Expression} (p : Position)
    (hname : Lexical.isName name) (hnames : names.LineFree) :
    lineFeeds ((Declaration.mk name e p).generate names) = lineFeeds (e.generate names) := by
  have hvar : lineFeeds (if names name = name then "var " else "") = 0 := by
    split <;> simp [lineFeeds]
  simp only [Declaration.generate, lineFeeds_append, hvar]
  simp [lineFeeds, hnames.count hname]

theorem DerivesDeclaration.lineFeeds_generate {ts : List Token} {d : Declaration}
    (h : DerivesDeclaration ts d) (hts : ∀ x ∈ ts, x.WellSpelled) (hnames : names.LineFree) :
    lineFeeds (d.generate names) = stringFeeds ts := by
  cases h with
  | declaration hvar hname heq he =>
      simp only [List.forall_mem_cons] at hts
      rw [stringFeeds_cons_of_kind hvar (by decide), stringFeeds_cons_of_kind hname (by decide),
        stringFeeds_cons_of_kind heq (by decide), ← he.lineFeeds_code hts.2.2.2 hnames]
      exact lineFeeds_declaration _ (hts.2.1.isName hname) hnames

theorem DerivesBareDeclaration.lineFeeds_generate {ts : List Token} {d : Declaration}
    (h : DerivesBareDeclaration ts d) (hts : ∀ x ∈ ts, x.WellSpelled) (hnames : names.LineFree) :
    lineFeeds (d.generate names) = stringFeeds ts := by
  cases h with
  | keyword hd => exact hd.lineFeeds_generate hts hnames
  | bare hname heq he =>
      simp only [List.forall_mem_cons] at hts
      rw [stringFeeds_cons_of_kind hname (by decide), stringFeeds_cons_of_kind heq (by decide),
        ← he.lineFeeds_code hts.2.2 hnames]
      exact lineFeeds_declaration _ (hts.1.isName hname) hnames

theorem DerivesMoreParameters.stringFeeds_eq {ts : List Token} {params : List String}
    (h : DerivesMoreParameters ts params) : stringFeeds ts = 0 := by
  induction h with
  | nil => rfl
  | cons hcomma hname _ ih =>
      rw [stringFeeds_cons_of_kind hcomma (by decide), stringFeeds_cons_of_kind hname (by decide),
        ih]

theorem DerivesParameters.stringFeeds_eq {ts : List Token} {params : List String}
    (h : DerivesParameters ts params) : stringFeeds ts = 0 := by
  cases h with
  | none hl hr =>
      rw [stringFeeds_cons_of_kind hl (by decide), stringFeeds_cons_of_kind hr (by decide)]
      rfl
  | some hl hname hmore hr =>
      rw [List.cons_append, List.cons_append, stringFeeds_cons_of_kind hl (by decide),
        stringFeeds_cons_of_kind hname (by decide), stringFeeds_append, hmore.stringFeeds_eq,
        stringFeeds_cons_of_kind hr (by decide)]
      rfl

theorem lineFeeds_parameters {params : List String} (h : WellSpelledParameters params) :
    lineFeeds (",".intercalate params) = 0 := by
  cases params with
  | nil => rfl
  | cons first rest =>
      obtain ⟨hfirst, hrest⟩ := List.forall_mem_cons.mp h
      rw [Transform.intercalate_cons, lineFeeds_append, lineFeeds_name hfirst, Nat.zero_add,
        lineFeeds_join, List.map_map]
      refine List.sum_eq_zero_iff_forall_eq_nat.mpr fun n hn => ?_
      obtain ⟨name, hname, rfl⟩ := List.mem_map.mp hn
      have hfree := lineFeeds_name (hrest name hname)
      simpa [lineFeeds] using hfree

theorem DerivesReturns.lineFeeds_generate {ts : List Token} {returns : Option Expression}
    (h : DerivesReturns ts returns) (hts : ∀ x ∈ ts, x.WellSpelled) (hnames : names.LineFree) :
    lineFeeds (generateReturns names returns) = stringFeeds ts := by
  cases h with
  | none => rfl
  | some hreturn he =>
      obtain ⟨-, hts⟩ := List.forall_mem_cons.mp hts
      rw [stringFeeds_cons_of_kind hreturn (by decide), ← he.lineFeeds_code hts hnames]
      simp [generateReturns, ExpressionSymbol.code, lineFeeds]

namespace StatementSymbol

/-- The code of what a nonterminal stands for. -/
def code (names : Resolver) : (s : StatementSymbol) → s.Tree → String
  | statement, s => s.generate names
  | statements, ss => generateScript names ss
  | definition, d => d.generate names
  | conditional, c => c.generate names
  | loop, l => l.generate names

theorem Derives.lineFeeds_code {s : StatementSymbol} {ts : List Token} {t : s.Tree}
    (h : s.Derives ts t) (hts : ∀ x ∈ ts, x.WellSpelled) (hnames : names.LineFree) :
    lineFeeds (s.code names t) = stringFeeds ts := by
  induction h generalizing names with
  | ofDefinition _ ih | ofConditional _ ih | ofLoop _ ih => exact ih hts hnames
  | ofDeclaration hd =>
      rw [← hd.lineFeeds_generate hts hnames]
      simp [code, Statement.generate, lineFeeds]
  | ofAssignment ha =>
      rw [← ha.lineFeeds_generate hts hnames]
      simp [code, Statement.generate, lineFeeds]
  | ofCall hc =>
      rw [← hc.lineFeeds_code hts hnames]
      simp [code, ExpressionSymbol.code, Statement.generate, lineFeeds]
  | nil => rfl
  | cons _ _ ih ih' =>
      obtain ⟨hts, hus⟩ := List.forall_mem_append.mp hts
      rw [stringFeeds_append, ← ih hts hnames, ← ih' hus hnames]
      simp [code, generateScript]
  | @definition _ _ _ _ _ _ params _ _ hdef hname hparams _ hreturns hend ih =>
      simp only [List.cons_append, List.forall_mem_cons, List.forall_mem_append] at hts
      obtain ⟨-, hn, ⟨⟨hps, hbody⟩, hvs⟩, -⟩ := hts
      have hspelled := hparams.wellSpelled hps
      have hwithin := hnames.within params
      simp only [List.cons_append, stringFeeds_cons_of_kind hdef (by decide),
        stringFeeds_cons_of_kind hname (by decide), stringFeeds_append, hparams.stringFeeds_eq,
        stringFeeds_cons_of_kind hend (by decide)]
      rw [← ih hbody hwithin, ← hreturns.lineFeeds_generate hvs hwithin]
      have hfree := lineFeeds_name (hn.isName hname)
      have hfree' := lineFeeds_parameters hspelled
      simp only [code, Definition.generate, lineFeeds_append, hfree, hfree']
      simp [lineFeeds]
  | conditional hif htest hthen _ hend ih =>
      simp only [List.cons_append, List.forall_mem_cons, List.forall_mem_append] at hts
      obtain ⟨-, ⟨htest', -, hbody⟩, -⟩ := hts
      simp only [List.cons_append, stringFeeds_append, stringFeeds_cons_of_kind hif (by decide),
        stringFeeds_cons_of_kind hthen (by decide), stringFeeds_cons_of_kind hend (by decide)]
      rw [← htest.lineFeeds_code htest' hnames, ← ih hbody hnames]
      simp [code, ExpressionSymbol.code, Conditional.generate, lineFeeds]
  | loop hfor hinit hsemi htest hsemi' hstep hdo _ hend ih =>
      simp only [List.cons_append, List.forall_mem_cons, List.forall_mem_append] at hts
      obtain ⟨-, ⟨⟨⟨hinit', -, htest'⟩, -, hstep'⟩, -, hbody⟩, -⟩ := hts
      simp only [List.cons_append, stringFeeds_append, stringFeeds_cons_of_kind hfor (by decide),
        stringFeeds_cons_of_kind hsemi (by decide), stringFeeds_cons_of_kind hsemi' (by decide),
        stringFeeds_cons_of_kind hdo (by decide), stringFeeds_cons_of_kind hend (by decide)]
      rw [← hinit.lineFeeds_generate hinit' hnames, ← htest.lineFeeds_code htest' hnames,
        ← hstep.lineFeeds_generate hstep' hnames, ← ih hbody hnames]
      simp [code, ExpressionSymbol.code, Loop.generate, lineFeeds, Nat.add_assoc]

end StatementSymbol

/-! ## Workflows -/

theorem DerivesAction.lineFeeds_line {ts : List Token} {a : Action} (h : DerivesAction ts a)
    (hts : ∀ x ∈ ts, x.WellSpelled) (hnames : names.LineFree) :
    lineFeeds ("  " ++ a.phase.keyword ++ ": " ++ a.generate names) = stringFeeds ts := by
  cases h with
  | @action _ _ _ phase _ hstart hbody hend =>
      simp only [List.cons_append, List.forall_mem_cons, List.forall_mem_append] at hts
      rw [List.cons_append, stringFeeds_cons_of_kind hstart (by cases phase <;> decide),
        stringFeeds_append, stringFeeds_cons_of_kind hend (by decide),
        ← hbody.lineFeeds_code hts.2.1 hnames]
      cases phase <;> simp [StatementSymbol.code, Action.generate, Phase.keyword, lineFeeds]

theorem DerivesTransition.lineFeeds_line {ts : List Token} {t : Transition}
    (h : DerivesTransition ts t) (hts : ∀ x ∈ ts, x.WellSpelled) (hnames : names.LineFree) :
    lineFeeds ("  -> " ++ t.target ++ ": " ++ t.generateGuard names) = stringFeeds ts := by
  cases h with
  | transition hstart hto hname hguard =>
      simp only [List.forall_mem_cons] at hts
      obtain ⟨-, -, htarget, hts⟩ := hts
      rw [stringFeeds_cons_of_kind hstart (by decide), stringFeeds_cons_of_kind hto (by decide),
        stringFeeds_cons_of_kind hname (by decide)]
      have hfree := lineFeeds_name (htarget.isName hname)
      simp only [lineFeeds_append, hfree]
      cases hguard with
      | none => simp [Transition.generateGuard, lineFeeds]
      | some hif htest =>
          obtain ⟨-, hts⟩ := List.forall_mem_cons.mp hts
          rw [stringFeeds_cons_of_kind hif (by decide), ← htest.lineFeeds_code hts hnames]
          simp [Transition.generateGuard, ExpressionSymbol.code, lineFeeds]

/-- Actions are listed in front of transitions, however they are mixed. -/
theorem DerivesMembers.lineFeeds_lines {ts : List Token} {as : List Action} {trs : List Transition}
    (h : DerivesMembers ts as trs) (hts : ∀ x ∈ ts, x.WellSpelled) (hnames : names.LineFree) :
    (as.map fun a => lineFeeds ("  " ++ a.phase.keyword ++ ": " ++ a.generate names)).sum +
      (trs.map fun t => lineFeeds ("  -> " ++ t.target ++ ": " ++ t.generateGuard names)).sum =
    stringFeeds ts := by
  induction h with
  | nil => rfl
  | action ha _ ih =>
      obtain ⟨hts, hus⟩ := List.forall_mem_append.mp hts
      rw [stringFeeds_append, ← ih hus, ← ha.lineFeeds_line hts hnames, List.map_cons,
        List.sum_cons, Nat.add_assoc]
  | transition ht _ ih =>
      obtain ⟨hts, hus⟩ := List.forall_mem_append.mp hts
      rw [stringFeeds_append, ← ih hus, ← ht.lineFeeds_line hts hnames, List.map_cons,
        List.sum_cons, Nat.add_left_comm]

theorem DerivesNode.lineFeeds_listing {ts : List Token} {n : Node} (h : DerivesNode ts n)
    (hts : ∀ x ∈ ts, x.WellSpelled) (hnames : names.LineFree) :
    ((n.listing names).map lineFeeds).sum = stringFeeds ts := by
  cases h with
  | @node _ _ _ _ kind _ _ hstart hname hmembers hend =>
      simp only [List.cons_append, List.forall_mem_cons, List.forall_mem_append] at hts
      simp only [List.cons_append, stringFeeds_append,
        stringFeeds_cons_of_kind hstart (by cases kind <;> decide),
        stringFeeds_cons_of_kind hname (by decide), stringFeeds_cons_of_kind hend (by decide)]
      have hfree := lineFeeds_name (hts.2.1.isName hname)
      have hkeyword : lineFeeds kind.keyword = 0 := by
        cases kind <;> simp [lineFeeds, NodeKind.keyword]
      rw [← hmembers.lineFeeds_lines hts.2.2.1 hnames]
      simp only [Node.listing, List.cons_append, List.map_cons, List.map_append, List.map_map,
        List.sum_cons, List.sum_append]
      simp only [lineFeeds_append, hfree, hkeyword]
      simp [lineFeeds, Function.comp_def]

theorem DerivesNodes.lineFeeds_listing {ts : List Token} {ns : List Node} (h : DerivesNodes ts ns)
    (hts : ∀ x ∈ ts, x.WellSpelled) (hnames : names.LineFree) :
    ((ns.flatMap (Node.listing names)).map lineFeeds).sum = stringFeeds ts := by
  induction h with
  | nil => rfl
  | cons hn _ ih =>
      obtain ⟨hts, hus⟩ := List.forall_mem_append.mp hts
      rw [List.flatMap_cons, List.map_append, List.sum_append, stringFeeds_append, ih hus,
        hn.lineFeeds_listing hts hnames]

end Grammar

/-- The items of a workflow's listing, each as the line that it should be. -/
def Workflow.listing (names : Resolver) (w : Workflow) : List String :=
  w.nodes.flatMap (Node.listing names)

/-- The nodes of a workflow, their actions and their transitions. -/
def Workflow.items (w : Workflow) : Nat :=
  (w.nodes.map fun n => 1 + n.actions.length + n.transitions.length).sum

theorem Workflow.length_listing (names : Resolver) (w : Workflow) :
    (w.listing names).length = w.items := by
  have hnode (n : Node) :
      (n.listing names).length = 1 + n.actions.length + n.transitions.length := by
    simp [Node.listing]
    omega
  simp only [listing, items, List.length_flatMap, hnode]

theorem Grammar.DerivesWorkflow.lineFeeds_listing {names : Resolver} {ts : List Token}
    {w : Workflow} (h : DerivesWorkflow ts w) (hts : ∀ x ∈ ts, x.WellSpelled)
    (hnames : names.LineFree) : ((w.listing names).map lineFeeds).sum = stringFeeds ts := by
  cases h with
  | workflow hstart hname hnodes hend =>
      simp only [List.cons_append, List.forall_mem_cons, List.forall_mem_append] at hts
      simp only [List.cons_append, stringFeeds_append, stringFeeds_cons_of_kind hstart (by decide),
        stringFeeds_cons_of_kind hname (by decide), stringFeeds_cons_of_kind hend (by decide)]
      exact hnodes.lineFeeds_listing hts.2.2.1 hnames

/-! ## Lines -/

/-- Lines with a line feed behind each of them have one line feed more for
each of them. -/
theorem lineFeeds_lines (lines : List String) :
    lineFeeds (String.join (lines.map (· ++ "\n"))) = lines.length + (lines.map lineFeeds).sum := by
  induction lines with
  | nil => rfl
  | cons line lines ih =>
      have hfeed : lineFeeds "\n" = 1 := by simp [lineFeeds]
      rw [List.map_cons, String.join_cons, lineFeeds_append, lineFeeds_append, ih, hfeed,
        List.map_cons, List.sum_cons, List.length_cons]
      omega

/-- Lines with a line feed behind each of them, as the characters of the
lines with line feeds between them, nothing being behind the last one. -/
theorem toList_lines (lines : List String) :
    (String.join (lines.map (· ++ "\n"))).toList =
      ['\n'].intercalate (lines.map String.toList ++ [[]]) := by
  induction lines with
  | nil => rfl
  | cons line lines ih =>
      obtain ⟨next, more, hmore⟩ : ∃ next more, lines.map String.toList ++ [[]] = next :: more :=
        List.exists_cons_of_ne_nil (by simp)
      rw [hmore] at ih
      rw [List.map_cons, String.join_cons, String.toList_append, String.toList_append, ih,
        List.map_cons, List.cons_append, hmore, List.intercalate_cons_cons]
      rfl

theorem length_splitOn (cs : List Char) : (cs.splitOn '\n').length = cs.count '\n' + 1 := by
  induction cs with
  | nil => rfl
  | cons c cs ih =>
      rw [List.splitOn_cons_eq_if_modifyHead, List.count_cons]
      split
      · rw [List.length_cons, ih]
      · rw [List.length_modifyHead, ih]

/-- The lines of the listing for a source.

If no name is resolved to a text with a line feed, the listing has one line
feed for each node, action and transition, and besides these the line feeds
of all strings of the source. So it splits at its line feeds into the lines
of these items, in their order, exactly if there is no line feed in any
string; and this is also when each of those lines is one line. -/
theorem lineFeeds_render {text : String} {w : Workflow} {names : Resolver}
    (h : (parseWorkflow text).result = .ok w) (hnames : names.LineFree) :
    lineFeeds (w.render names) = w.items + stringFeeds (tokenize text) ∧
      ((w.render names).toList.splitOn '\n' = (w.listing names).map String.toList ++ [[]] ↔
        ∀ t ∈ tokenize text, t.kind = .string → '\n' ∉ t.text.toList) ∧
      ((∀ line ∈ w.listing names, '\n' ∉ line.toList) ↔
        ∀ t ∈ tokenize text, t.kind = .string → '\n' ∉ t.text.toList) := by
  obtain ⟨ts, p, hts⟩ := exists_lexes .start text.toList
  obtain ⟨hderives, -⟩ := (Entry.parseText_eq_ok_iff (e := .workflow) hts).mp h
  have htokens : stringFeeds (tokenize text) = stringFeeds ts := by
    rw [hts.tokenize_eq, stringFeeds_append]
    rfl
  have hsum := Grammar.DerivesWorkflow.lineFeeds_listing hderives hts.wellSpelled hnames
  rw [← htokens] at hsum
  have hcount : lineFeeds (w.render names) = w.items + stringFeeds (tokenize text) := by
    rw [← hsum, ← w.length_listing names]
    exact lineFeeds_lines _
  have hlines : (∀ line ∈ w.listing names, '\n' ∉ line.toList) ↔
      ∀ t ∈ tokenize text, t.kind = .string → '\n' ∉ t.text.toList := by
    rw [← stringFeeds_eq_zero_iff, ← hsum]
    simp only [List.sum_eq_zero_iff_forall_eq_nat, List.forall_mem_map, lineFeeds,
      List.count_eq_zero]
  refine ⟨hcount, ⟨fun hsplit => ?_, fun hstrings => ?_⟩, hlines⟩
  · -- As many parts as lines leave no line feed for the strings.
    have hlength := length_splitOn (w.render names).toList
    rw [hsplit, List.length_append, List.length_map, w.length_listing] at hlength
    have hnone : stringFeeds (tokenize text) = 0 := by
      rw [lineFeeds] at hcount
      simp only [List.length_singleton] at hlength
      omega
    exact stringFeeds_eq_zero_iff.mp hnone
  · have hfree : ∀ cs ∈ (w.listing names).map String.toList ++ [[]], '\n' ∉ cs := by
      simpa [or_imp, forall_and] using hlines.mpr hstrings
    rw [Workflow.render, toList_lines]
    exact List.splitOn_intercalate '\n' hfree (by simp)

/-- `workflow w node n enter x = "a` and, on the next line, `b" end end end` -/
def brokenString : String := "workflow w node n enter x = \"a\nb\" end end end"

/-- What is parsed from it. -/
def brokenStringWorkflow : Workflow :=
  let assignment := ⟨"x", (Factor.string "\"a\nb\"").toExpression, ⟨24, 1, 25⟩⟩
  ⟨"w", [⟨.node, "n", [⟨.enter, [.assignment assignment], ⟨18, 1, 19⟩⟩], [], ⟨11, 1, 12⟩⟩], .start⟩

/-- Two items, and a listing of three lines. -/
theorem brokenString_lines :
    (parseWorkflow brokenString).result = .ok brokenStringWorkflow ∧
      Resolver.verbatim.LineFree ∧ brokenStringWorkflow.items = 2 ∧
      lineFeeds (brokenStringWorkflow.render .verbatim) = 3 ∧
      brokenStringWorkflow.render .verbatim = "node n\n  enter: x=\"a\nb\";\n" := by
  have hparse : (parseWorkflow brokenString).result = .ok brokenStringWorkflow := rfl
  have hcount := (lineFeeds_render hparse Resolver.lineFree_verbatim).1
  refine ⟨hparse, Resolver.lineFree_verbatim, rfl, ?_, by decide⟩
  rw [hcount]
  decide

end WorkflowScript
