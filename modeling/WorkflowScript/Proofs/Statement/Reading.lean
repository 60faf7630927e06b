import WorkflowScript.Proofs.Expression.Reading
import WorkflowScript.Proofs.Statement.Spelling
import WorkflowScript.Statement.Positions
import WorkflowScript.Statement.Print

/-!
# Reading printed statements

As for expressions. Whatever follows a statement starts with a blank or is
the end of the text, so a statement that ends in a name or a number ends
there.
-/

namespace WorkflowScript

open WorkflowScript.Lexical WorkflowScript.Grammar

/-! ## Statements without statements in them -/

/-- A name, a sign of equality and the tokens of an expression. -/
def Binds (name : String) (e : Expression) (ts : List Token) : Prop :=
  ∃ p q us, ts = ⟨.identifier, name, p⟩ :: ⟨.equals, "=", q⟩ :: us ∧
    ExpressionSymbol.expression.Yields e us

theorem reads_binding {name : String} {e : Expression} {more : List Char} (hname : isName name)
    (he : e.WellSpelled) (hmore : isApart more) :
    Reads (name ++ " = " ++ e.print) more (Binds name e) := by
  have happart : isApart (" = ".toList ++ (e.print.toList ++ more)) := rfl
  have hreadsName := Reads.name hname happart
  have heq : Reads " = " (e.print.toList ++ more) (OneToken .equals "=") :=
    .padded " " "=" " " rfl rfl rfl rfl _
  refine ((hreadsName.append heq).append (e.reads he hmore)).mono fun _ hts => ?_
  obtain ⟨_, us, rfl, ⟨_, _, rfl, ⟨p, rfl⟩, q, rfl⟩, hus⟩ := hts
  exact ⟨p, q, us, rfl, hus⟩

theorem Assignment.reads (a : Assignment) (h : a.WellSpelled) {more : List Char}
    (hmore : isApart more) :
    Reads a.print more (Yields DerivesAssignment (mapPositions fun _ => .start) a) := by
  refine (reads_binding h.1 h.2 hmore).mono fun _ hts => ?_
  obtain ⟨p, q, us, rfl, e, he, hee⟩ := hts
  exact ⟨_, .assignment rfl rfl he, by simp_all [ExpressionSymbol.erase, mapPositions]⟩

theorem Declaration.reads_bare (d : Declaration) (h : d.WellSpelled) {more : List Char}
    (hmore : isApart more) :
    Reads d.printBare more (Yields DerivesBareDeclaration (mapPositions fun _ => .start) d) := by
  refine (reads_binding h.1 h.2 hmore).mono fun _ hts => ?_
  obtain ⟨p, q, us, rfl, e, he, hee⟩ := hts
  exact ⟨_, .bare rfl rfl he, by simp_all [ExpressionSymbol.erase, mapPositions]⟩

theorem Declaration.reads (d : Declaration) (h : d.WellSpelled) {more : List Char}
    (hmore : isApart more) :
    Reads d.print more (Yields DerivesDeclaration (mapPositions fun _ => .start) d) := by
  have hvar : Reads "var " (d.printBare.toList ++ more) (OneToken .kwVar "var") :=
    .padded "" "var" " " rfl rfl rfl rfl _
  refine (hvar.append (reads_binding h.1 h.2 hmore)).mono fun _ hts => ?_
  obtain ⟨_, _, rfl, ⟨o, rfl⟩, p, q, us, rfl, e, he, hee⟩ := hts
  exact ⟨_, .declaration rfl rfl rfl he, by simp_all [ExpressionSymbol.erase, mapPositions]⟩

/-- A list of names is read as its first name and further parameters. -/
theorem reads_names {name : String} {names : List String} {more : List Char}
    (h : WellSpelledParameters (name :: names)) (hmore : isApart more) :
    Reads (", ".intercalate (name :: names)) more fun ts =>
      ∃ p us, ts = ⟨.identifier, name, p⟩ :: us ∧ DerivesMoreParameters us names := by
  induction names generalizing name with
  | nil =>
      rw [String.intercalate_singleton]
      refine (Reads.name (h name (by simp)) hmore).mono fun _ hts => ?_
      obtain ⟨p, rfl⟩ := hts
      exact ⟨p, [], rfl, .nil⟩
  | cons name' names ih =>
      obtain ⟨hname, hnames⟩ := List.forall_mem_cons.mp h
      have happart : isApart (", ".toList ++
          ((", ".intercalate (name' :: names)).toList ++ more)) := rfl
      have hfirst := Reads.name hname happart
      have hcomma : Reads ", " ((", ".intercalate (name' :: names)).toList ++ more)
          (OneToken .comma ",") := .padded "" "," " " rfl rfl rfl rfl _
      rw [String.intercalate_cons_cons]
      refine ((hfirst.append hcomma).append (ih hnames)).mono fun _ hts => ?_
      obtain ⟨_, _, rfl, ⟨_, _, rfl, ⟨p, rfl⟩, q, rfl⟩, r, us, rfl, hus⟩ := hts
      exact ⟨p, _, rfl, .cons rfl rfl hus⟩

theorem reads_parameters (params : List String) (h : WellSpelledParameters params)
    {more : List Char} (hmore : isApart more) :
    Reads ("(" ++ ", ".intercalate params ++ ")") more fun ts => DerivesParameters ts params := by
  have hrp := Reads.spelled (k := .rightParen) "" ")" rfl rfl rfl hmore
  cases params with
  | nil =>
      refine ((Reads.leftParen _).append hrp).mono fun _ hts => ?_
      obtain ⟨_, _, rfl, ⟨p, rfl⟩, q, rfl⟩ := hts
      exact .none rfl rfl
  | cons name names =>
      have hclose : isApart (")".toList ++ more) := rfl
      have hnames := reads_names h hclose
      refine (((Reads.leftParen _).append hnames).append hrp).mono fun _ hts => ?_
      obtain ⟨_, _, rfl, ⟨_, _, rfl, ⟨p, rfl⟩, q, us, rfl, hus⟩, r, rfl⟩ := hts
      exact .some rfl rfl hus rfl

theorem reads_returns (returns : Option Expression) (h : WellSpelledReturns returns)
    {more : List Char} (hmore : isApart more) :
    Reads (printReturns returns) more
      (Yields DerivesReturns (Option.map (Expression.mapPositions fun _ => .start)) returns) := by
  cases returns with
  | none => exact .mono (.blank rfl) fun _ hts => ⟨none, hts ▸ .none, rfl⟩
  | some value =>
      have hreturn : Reads " return " (value.print.toList ++ more) (OneToken .kwReturn "return") :=
        .padded " " "return" " " rfl rfl rfl rfl _
      refine (hreturn.append (value.reads h hmore)).mono fun _ hts => ?_
      obtain ⟨_, us, rfl, ⟨p, rfl⟩, e, he, hee⟩ := hts
      exact ⟨_, .some rfl he, congrArg some hee⟩

/-! ## Bodies -/

theorem apart_body (ss : List Statement) {rest : List Char} (h : isApart rest) :
    isApart ((printBody ss).toList ++ rest) := by
  cases ss with
  | nil => exact h
  | cons s ss =>
      simp only [printBody, String.toList_append, List.append_assoc]
      rfl

theorem apart_returns (returns : Option Expression) {rest : List Char} (h : isApart rest) :
    isApart ((printReturns returns).toList ++ rest) := by
  cases returns with
  | none => exact h
  | some value =>
      simp only [printReturns, String.toList_append, List.append_assoc]
      rfl

/-- What closes a body. -/
theorem reads_end {more : List Char} (hmore : isApart more) :
    Reads " end" more (OneToken .kwEnd "end") :=
  .spelled " " "end" rfl rfl rfl hmore

namespace Grammar.StatementSymbol

/-- The tree with every position erased. -/
def erase : (s : StatementSymbol) → s.Tree → s.Tree
  | statement, s => s.mapPositions fun _ => .start
  | statements, ss => mapStatements (fun _ => .start) ss
  | definition, d => d.mapPositions fun _ => .start
  | conditional, c => c.mapPositions fun _ => .start
  | loop, l => l.mapPositions fun _ => .start

/-- The tokens stand for the tree, up to positions. -/
abbrev Yields (s : StatementSymbol) : s.Tree → List Token → Prop :=
  WorkflowScript.Yields s.Derives s.erase

end Grammar.StatementSymbol

open WorkflowScript.Grammar.StatementSymbol

mutual

theorem Statement.reads : (s : Statement) → s.WellSpelled → ∀ {more}, isApart more →
    Reads s.print more (statement.Yields s)
  | .definition d, h, more, hmore => by
      rw [Statement.print]
      exact (d.reads h hmore).mono fun _ => .map Statement.definition .ofDefinition fun _ => rfl
  | .declaration d, h, more, hmore => by
      rw [Statement.print]
      exact (d.reads h hmore).mono fun _ => .map Statement.declaration .ofDeclaration fun _ => rfl
  | .assignment a, h, more, hmore => by
      rw [Statement.print]
      exact (a.reads h hmore).mono fun _ => .map Statement.assignment .ofAssignment fun _ => rfl
  | .conditional c, h, more, hmore => by
      rw [Statement.print]
      exact (c.reads h hmore).mono fun _ => .map Statement.conditional .ofConditional fun _ => rfl
  | .loop l, h, more, hmore => by
      rw [Statement.print]
      exact (l.reads h hmore).mono fun _ => .map Statement.loop .ofLoop fun _ => rfl
  | .call c, h, more, hmore => by
      rw [Statement.print]
      exact (c.reads h hmore).mono fun _ => .map Statement.call .ofCall fun _ => rfl

theorem Definition.reads : (d : Definition) → d.WellSpelled → ∀ {more}, isApart more →
    Reads d.print more (definition.Yields d)
  | ⟨name, params, body, returns, position⟩, ⟨hname, hparams, hbody, hreturns⟩, more, hmore => by
      have hend : isApart (" end".toList ++ more) := rfl
      have hafter := apart_returns returns hend
      have hdef {rest} : Reads "def " rest (OneToken .kwDef "def") :=
        .padded "" "def" " " rfl rfl rfl rfl _
      have hopen : isApart (("(" ++ ", ".intercalate params ++ ")").toList ++
          ((printBody body).toList ++ ((printReturns returns).toList ++ (" end".toList ++ more)))) := by
        simp only [String.toList_append, List.append_assoc]
        rfl
      have hreadsName := Reads.name hname hopen
      have hreadsParams := reads_parameters params hparams (apart_body body hafter)
      have hreadsBody := reads_body body hbody hafter
      have hreadsReturns := reads_returns returns hreturns hend
      have hprint : Definition.print ⟨name, params, body, returns, position⟩ =
          "def " ++ name ++ ("(" ++ ", ".intercalate params ++ ")") ++ printBody body ++
            printReturns returns ++ " end" := by
        simp only [Definition.print, String.append_assoc]
      rw [hprint]
      refine (((((hdef.append hreadsName).append hreadsParams).append hreadsBody).append
        hreadsReturns).append (reads_end hmore)).mono fun _ hts => ?_
      obtain ⟨_, _, rfl, ⟨_, _, rfl, ⟨_, us, rfl, ⟨_, ts, rfl, ⟨_, _, rfl, ⟨p, rfl⟩, q, rfl⟩,
        hts⟩, b, hb, heb⟩, r, hr, her⟩, o, rfl⟩ := hts
      refine ⟨⟨name, params, b, r, p⟩, .definition rfl rfl hts hb hr rfl, ?_⟩
      simp_all [erase, Definition.mapPositions]

theorem Conditional.reads : (c : Conditional) → c.WellSpelled → ∀ {more}, isApart more →
    Reads c.print more (conditional.Yields c)
  | ⟨test, body, position⟩, ⟨htest, hbody⟩, more, hmore => by
      have hend : isApart (" end".toList ++ more) := rfl
      have hif {rest} : Reads "if " rest (OneToken .kwIf "if") :=
        .padded "" "if" " " rfl rfl rfl rfl _
      have hafter : isApart (" then".toList ++ ((printBody body).toList ++
          (" end".toList ++ more))) := rfl
      have hreadsTest := test.reads htest hafter
      have hthen := Reads.spelled (k := .kwThen) " " "then" rfl rfl rfl (apart_body body hend)
      have hreadsBody := reads_body body hbody hend
      rw [Conditional.print]
      refine ((((hif.append hreadsTest).append hthen).append hreadsBody).append
        (reads_end hmore)).mono fun _ hts => ?_
      obtain ⟨_, _, rfl, ⟨_, us, rfl, ⟨_, _, rfl, ⟨_, ts, rfl, ⟨p, rfl⟩, c, hc, hec⟩, q, rfl⟩,
        b, hb, heb⟩, o, rfl⟩ := hts
      refine ⟨⟨c, b, p⟩, ?_, by simp_all [erase, ExpressionSymbol.erase, Conditional.mapPositions]⟩
      simpa only [List.append_assoc, List.cons_append, List.nil_append] using
        Derives.conditional rfl hc rfl hb rfl

theorem Loop.reads : (l : Loop) → l.WellSpelled → ∀ {more}, isApart more →
    Reads l.print more (loop.Yields l)
  | ⟨init, test, step, body, position⟩, ⟨hinit, htest, hstep, hbody⟩, more, hmore => by
      have hend : isApart (" end".toList ++ more) := rfl
      have hfor {rest} : Reads "for " rest (OneToken .kwFor "for") :=
        .padded "" "for" " " rfl rfl rfl rfl _
      have hsemi {rest} : Reads "; " rest (OneToken .semicolon ";") :=
        .padded "" ";" " " rfl rfl rfl rfl _
      have hafterStep : isApart (" do".toList ++ ((printBody body).toList ++
          (" end".toList ++ more))) := rfl
      have hafterTest : isApart ("; ".toList ++ (step.print.toList ++ (" do".toList ++
          ((printBody body).toList ++ (" end".toList ++ more))))) := rfl
      have hafterInit : isApart ("; ".toList ++ (test.print.toList ++ ("; ".toList ++
          (step.print.toList ++ (" do".toList ++ ((printBody body).toList ++
            (" end".toList ++ more))))))) := rfl
      have hreadsInit := init.reads_bare hinit hafterInit
      have hreadsTest := test.reads htest hafterTest
      have hreadsStep := step.reads hstep hafterStep
      have hdo := Reads.spelled (k := .kwDo) " " "do" rfl rfl rfl (apart_body body hend)
      have hreadsBody := reads_body body hbody hend
      rw [Loop.print]
      refine ((((((((hfor.append hreadsInit).append hsemi).append hreadsTest).append hsemi).append
        hreadsStep).append hdo).append hreadsBody).append (reads_end hmore)).mono fun _ hts => ?_
      obtain ⟨_, _, rfl, ⟨_, ws, rfl, ⟨_, _, rfl, ⟨_, vs, rfl, ⟨_, _, rfl, ⟨_, us, rfl,
        ⟨_, _, rfl, ⟨_, ts, rfl, ⟨p, rfl⟩, d, hd, hed⟩, q, rfl⟩, r, hr, her⟩, q', rfl⟩,
        a, ha, hea⟩, q'', rfl⟩, b, hb, heb⟩, o, rfl⟩ := hts
      refine ⟨⟨d, r, a, b, p⟩, ?_, by simp_all [erase, ExpressionSymbol.erase, Loop.mapPositions]⟩
      simpa only [List.append_assoc, List.cons_append, List.nil_append] using
        Derives.loop rfl hd rfl hr rfl ha rfl hb rfl

theorem reads_body : (ss : List Statement) → WellSpelledStatements ss → ∀ {more}, isApart more →
    Reads (printBody ss) more (statements.Yields ss)
  | [], _, more, _ => .mono (.blank rfl) fun _ hts => ⟨[], hts ▸ .nil, rfl⟩
  | s :: ss, h, more, hmore => by
      have hspace {rest} : Reads " " rest (· = []) := .blank rfl
      have hfirst := s.reads h.1 (apart_body ss hmore)
      have hrest := reads_body ss h.2 hmore
      rw [printBody]
      refine ((hspace.append hfirst).append hrest).mono fun _ hts => ?_
      obtain ⟨_, _, rfl, ⟨_, _, rfl, rfl, t, ht, het⟩, u, hu, heu⟩ := hts
      exact ⟨_, .cons ht hu, by simp_all [erase, mapStatements]⟩

end

end WorkflowScript
