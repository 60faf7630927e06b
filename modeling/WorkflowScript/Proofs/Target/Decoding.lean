import WorkflowScript.Fragment.Operations
import WorkflowScript.Proofs.Statement.Spelling
import WorkflowScript.Proofs.Target.Injective

/-!
# Generated code can be told apart

Target code of statements has nothing between one statement and the next, and
one kind of brackets for all purposes. It still determines the script: read
from the left, each part shows where it ends. An expression ends in front of a
semicolon, a closing bracket or an opening brace, for none of these goes on
with an expression as far as its brackets are closed (`Tree.text_unique`). A
statement shows its form by its first word and the character behind it
(`Statement.lead`). A body ends where a brace closes or a return statement
starts, and no statement starts so.

`Shows` says of a part that its code shows it whatever follows. The parts are
put together by cancelling what both codes start with, and no part is ever
looked for from the right.
-/

namespace WorkflowScript

open WorkflowScript.Lexical
open WorkflowScript.Target (Tree)

/-! ## The end of an expression -/

/-- What follows an expression that is a part of a statement. -/
def Closes : List Char → Prop
  | [] => False
  | c :: _ => c = ';' ∨ c = ')' ∨ c = '\x7b'

theorem closes_semicolon (rest : List Char) : Closes (";".toList ++ rest) := Or.inl rfl

theorem closes_bracket (rest : List Char) : Closes (")\x7b".toList ++ rest) := Or.inr (.inl rfl)

theorem closes_brace (rest : List Char) : Closes ("\x7b".toList ++ rest) := Or.inr (.inr rfl)

theorem Closes.ends {rest : List Char} (h : Closes rest) : Ends rest := by
  cases rest with
  | nil => trivial
  | cons c rest => obtain rfl | rfl | rfl := h <;> rfl

namespace Target

theorem lex_eq_none {c : Char} {cs : List Char} (h : splitToken c cs = none) :
    lex (c :: cs) = none := by
  rw [lex]
  split
  next => rfl
  next h' => rw [h'] at h; cases h

/-- Of what closes an expression, only the bracket is a token at all. -/
theorem head_lex_of_closes {cs : List Char} {ts : List Token} (hcs : Closes cs)
    (h : lex cs = some ts) : ts.head? = some .rightParen := by
  cases cs with
  | nil => cases hcs
  | cons c cs =>
      obtain rfl | rfl | rfl := hcs
      · rw [lex_eq_none rfl] at h
        cases h
      · rw [lex_cons rfl] at h
        obtain ⟨us, -, rfl⟩ := Option.map_eq_some_iff.mp h
        rfl
      · rw [lex_eq_none rfl] at h
        cases h

/-- A bracket behind a whole expression closes nothing in it, so no longer
expression starts with both. -/
theorem Tree.text_ne_append {t t' : Tree} (ht : t.Proper) (hspelled : t.WellSpelled)
    (ht' : t'.Proper) (hspelled' : t'.WellSpelled) {more : List Char} (hmore : Closes more) :
    t'.text.toList ≠ t.text.toList ++ more := by
  intro h
  have hlex : lex t'.text.toList = (lex more).map (t.tokens ++ ·) :=
    h ▸ t.lexes hspelled hmore.ends
  rw [lex_text hspelled'] at hlex
  obtain ⟨us, hus, htokens⟩ := Option.map_eq_some_iff.mp hlex.symm
  have hhead := head_lex_of_closes hmore hus
  cases us with
  | nil => cases hhead
  | cons x us =>
      obtain rfl : x = .rightParen := Option.some.inj hhead
      have hstops : Stops loosest (.rightParen :: us) := Nat.lt_succ_self _
      have hread := expression_tokens ht hstops (Nat.le_add_right _ t'.tokens.length)
      have hread' := expression_tokens ht' (show Stops loosest [] from trivial)
        (Nat.le_add_left _ t.tokens.length)
      rw [htokens] at hread
      rw [List.append_nil, hread] at hread'
      cases hread'

/-- In front of what closes an expression, the text of a tree shows the tree
and where it ends. -/
theorem Tree.text_unique {t t' : Tree} (ht : t.Proper) (hspelled : t.WellSpelled)
    (ht' : t'.Proper) (hspelled' : t'.WellSpelled) {rest rest' : List Char} (hrest : Closes rest)
    (hrest' : Closes rest') (h : t.text.toList ++ rest = t'.text.toList ++ rest') :
    t = t' ∧ rest = rest' := by
  have heq : t.text = t'.text ∧ rest = rest' := by
    rcases List.append_eq_append_iff.mp h with ⟨more, htext, hmore⟩ | ⟨more, htext, hmore⟩
    · cases more with
      | nil => exact ⟨String.toList_inj.mp (by simpa using htext.symm), by simpa using hmore⟩
      | cons c more =>
          have hcloses : Closes (c :: more) := by rwa [hmore] at hrest
          exact absurd htext (text_ne_append ht hspelled ht' hspelled' hcloses)
    · cases more with
      | nil => exact ⟨String.toList_inj.mp (by simpa using htext), by simpa using hmore.symm⟩
      | cons c more =>
          have hcloses : Closes (c :: more) := by rwa [hmore] at hrest'
          exact absurd htext (text_ne_append ht' hspelled' ht hspelled hcloses)
  have hread := read_text ht hspelled
  rw [heq.1, read_text ht' hspelled'] at hread
  exact ⟨(Option.some.inj hread).symm, heq.2⟩

end Target

/-! ## Parts that show themselves -/

/-- The code of `x` shows `x` up to what `key` forgets, and where the code
ends, among all codes of valid parts in front of what may follow them. -/
def Shows {α β : Type} (code : α → String) (key : α → β) (Valid : α → Prop)
    (Follows : List Char → Prop) (x : α) : Prop :=
  ∀ y rest rest', Valid y → Follows rest → Follows rest' →
    (code x).toList ++ rest = (code y).toList ++ rest' → key x = key y ∧ rest = rest'

theorem Shows.semicolon {α β : Type} {code : α → String} {key : α → β} {Valid : α → Prop} {x : α}
    (h : Shows code key Valid Closes x) :
    Shows (fun y => code y ++ ";") key Valid (fun _ => True) x := by
  intro y rest rest' hy _ _ heq
  simp only [String.toList_append, List.append_assoc] at heq
  obtain ⟨hkey, hrests⟩ := h y _ _ hy (closes_semicolon _) (closes_semicolon _) heq
  exact ⟨hkey, List.append_cancel_left hrests⟩

/-- Parts that are shown by their target trees are shown by their code. -/
theorem shows_of_presents {α β : Type} {code : α → String} {key : α → β} {Valid : α → Prop}
    {x : α} (tree : α → Tree) {meaning : α → Tree} {rank : Nat}
    (h : ∀ y, Valid y → Presents (tree y) (code y) (meaning y) rank)
    (hkey : ∀ y, tree x = tree y → key x = key y) (hx : Valid x) :
    Shows code key Valid Closes x := by
  intro y rest rest' hy hrest hrest' heq
  have hpx := h x hx
  have hpy := h y hy
  rw [← hpx.text_eq, ← hpy.text_eq] at heq
  obtain ⟨htree, hrests⟩ := Tree.text_unique hpx.proper hpx.wellSpelled hpy.proper hpy.wellSpelled
    hrest hrest' heq
  exact ⟨hkey y htree, hrests⟩

theorem Condition.shows (c : Condition) (h : c.WellSpelled) :
    Shows (generate .verbatim) (mapPositions fun _ => .start) WellSpelled Closes c :=
  shows_of_presents target presents c.target_injective h

theorem Relation.shows (r : Relation) (h : r.WellSpelled) :
    Shows (generate .verbatim) (mapPositions fun _ => .start) WellSpelled Closes r :=
  shows_of_presents target presents r.target_injective h

theorem Expression.shows (e : Expression) (h : e.WellSpelled) :
    Shows (generate .verbatim) (mapPositions fun _ => .start) WellSpelled Closes e :=
  shows_of_presents target presents e.target_injective h

theorem Call.shows (c : Call) (h : c.WellSpelled) :
    Shows (generate .verbatim) (mapPositions fun _ => .start) WellSpelled Closes c :=
  shows_of_presents target presents c.target_injective h

/-! ## Words -/

theorem isWord_of_isName {name : String} (h : isName name) : isWord name :=
  (Bool.and_eq_true_iff.mp h).1

theorem isWord_cons {word : String} (h : isWord word) :
    ∃ c cs, word.toList = c :: cs ∧ isNamePart c ∧ (c :: cs).all isNamePart := by
  unfold isWord at h
  split at h
  next => cases h
  next c cs htext =>
      obtain ⟨hstart, hcs⟩ := Bool.and_eq_true_iff.mp h
      have hc := isNamePart_of_isNameStart hstart
      exact ⟨c, cs, htext, hc, by rw [List.all_cons, hc, hcs]; rfl⟩

/-- A word in front of a character that is not part of one ends there. -/
theorem word_unique {word word' : String} {c c' : Char} {rest rest' : List Char}
    (hword : isWord word) (hword' : isWord word') (hc : isNamePart c = false)
    (hc' : isNamePart c' = false) (h : word.toList ++ c :: rest = word'.toList ++ c' :: rest') :
    word = word' ∧ c = c' ∧ rest = rest' := by
  obtain ⟨_, _, htext, -, hall⟩ := isWord_cons hword
  obtain ⟨_, _, htext', -, hall'⟩ := isWord_cons hword'
  rw [← htext] at hall
  rw [← htext'] at hall'
  obtain ⟨htake, hdrop⟩ := Ends.span (show Ends (c :: rest) from hc) (fun _ => id) hall
  obtain ⟨htake', hdrop'⟩ := Ends.span (show Ends (c' :: rest') from hc') (fun _ => id) hall'
  have hwords : word.toList = word'.toList := by rw [← htake, h, htake']
  have hrests : c :: rest = c' :: rest' := by rw [← hdrop, h, hdrop']
  exact ⟨String.toList_inj.mp hwords, List.cons.inj hrests⟩

theorem Assignment.shows (a : Assignment) (h : a.WellSpelled) :
    Shows (generate .verbatim) (mapPositions fun _ => .start) WellSpelled Closes a := by
  intro a' rest rest' h' hrest hrest' heq
  simp only [generate, String.toList_append, List.append_assoc] at heq
  obtain ⟨hname, -, hvalue⟩ := word_unique (isWord_of_isName h.1)
    (isWord_of_isName h'.1) (by decide) (by decide) heq
  obtain ⟨hvalue, hrests⟩ := a.value.shows h.2 _ _ _ h'.2 hrest hrest' hvalue
  have hname : a.name = a'.name := hname
  exact ⟨by rw [mapPositions, mapPositions, hname, hvalue], hrests⟩

@[simp] theorem Declaration.generate_verbatim (d : Declaration) :
    d.generate .verbatim = "var " ++ d.name ++ "=" ++ d.value.generate .verbatim := by
  simp [generate, Resolver.verbatim]

theorem Declaration.shows (d : Declaration) (h : d.WellSpelled) :
    Shows (generate .verbatim) (mapPositions fun _ => .start) WellSpelled Closes d := by
  intro d' rest rest' h' hrest hrest' heq
  simp only [generate_verbatim, String.toList_append, List.append_assoc] at heq
  obtain ⟨hname, -, hvalue⟩ := word_unique (isWord_of_isName h.1)
    (isWord_of_isName h'.1) (by decide) (by decide) (List.append_cancel_left heq)
  obtain ⟨hvalue, hrests⟩ := d.value.shows h.2 _ _ _ h'.2 hrest hrest' hvalue
  exact ⟨by rw [mapPositions, mapPositions, hname, hvalue], hrests⟩

/-! ## Forms of statements -/

inductive StatementForm where
  | definition | declaration | assignment | conditional | loop | call

def Statement.form : Statement → StatementForm
  | .definition _ => .definition
  | .declaration _ => .declaration
  | .assignment _ => .assignment
  | .conditional _ => .conditional
  | .loop _ => .loop
  | .call _ => .call

/-- The first word of a statement's code, and the character behind it. -/
def Statement.lead : Statement → String × Char
  | .definition _ => ("function", ' ')
  | .declaration _ => ("var", ' ')
  | .assignment a => (a.name, '=')
  | .conditional _ => ("if", '(')
  | .loop _ => ("for", '(')
  | .call c => (c.name, '(')

/-- The form of a statement that starts so. -/
def StatementForm.ofLead : String × Char → StatementForm
  | (word, ' ') => if word = "var" then .declaration else .definition
  | (_, '=') => .assignment
  | (word, _) => if word = "if" then .conditional else if word = "for" then .loop else .call

namespace Statement

theorem generate_lead (s : Statement) (rest : List Char) :
    ∃ more, (s.generate .verbatim).toList ++ rest = s.lead.1.toList ++ s.lead.2 :: more := by
  match s with
  | .definition ⟨_, _, _, _, _⟩ | .conditional ⟨_, _, _⟩ | .loop ⟨_, _, _, _, _⟩ =>
      simp only [generate, Definition.generate, Conditional.generate, Loop.generate,
        String.toList_append, List.append_assoc, lead]
      exact ⟨_, rfl⟩
  | .declaration _ | .assignment _ =>
      simp only [generate, Declaration.generate_verbatim, Assignment.generate,
        String.toList_append, List.append_assoc, lead]
      exact ⟨_, rfl⟩
  | .call ⟨_, [], _⟩ | .call ⟨_, _ :: _, _⟩ =>
      simp only [generate, Call.generate, String.toList_append, List.append_assoc, lead]
      exact ⟨_, rfl⟩

theorem lead_word : (s : Statement) → s.WellSpelled → isWord s.lead.1
  | .definition _, _ | .declaration _, _ | .conditional _, _ | .loop _, _ => by
      rw [lead]
      decide
  | .assignment _, h => isWord_of_isName h.1
  | .call ⟨_, _, _⟩, h => isWord_of_isName h.1

theorem lead_char (s : Statement) : isNamePart s.lead.2 = false := by
  cases s <;> rfl

/-- No name is one of the words that statements start with. -/
theorem form_ofLead : (s : Statement) → s.WellSpelled → StatementForm.ofLead s.lead = s.form
  | .definition _, _ | .declaration _, _ | .conditional _, _ | .loop _, _ => rfl
  | .assignment _, _ => rfl
  | .call ⟨name, _, _⟩, h => by
      have hif : name ≠ "if" := by
        rintro rfl
        exact absurd h.1 (by decide)
      have hfor : name ≠ "for" := by
        rintro rfl
        exact absurd h.1 (by decide)
      simp [lead, StatementForm.ofLead, form, hif, hfor]

theorem lead_eq {s s' : Statement} (h : s.WellSpelled) (h' : s'.WellSpelled)
    {rest rest' : List Char}
    (heq : (s.generate .verbatim).toList ++ rest = (s'.generate .verbatim).toList ++ rest') :
    s.lead = s'.lead := by
  obtain ⟨more, hs⟩ := s.generate_lead rest
  obtain ⟨more', hs'⟩ := s'.generate_lead rest'
  rw [hs, hs'] at heq
  obtain ⟨hword, hchar, -⟩ := word_unique (s.lead_word h) (s'.lead_word h') s.lead_char
    s'.lead_char heq
  exact Prod.ext hword hchar

/-- Two statements that have code in common from the first character on are
of one form. -/
theorem form_eq {s s' : Statement} (h : s.WellSpelled) (h' : s'.WellSpelled)
    {rest rest' : List Char}
    (heq : (s.generate .verbatim).toList ++ rest = (s'.generate .verbatim).toList ++ rest') :
    s.form = s'.form := by
  rw [← s.form_ofLead h, ← s'.form_ofLead h', lead_eq h h' heq]

end Statement

/-! ## Bodies -/

/-- What follows the statements of a body, or of a whole script. -/
def EndsBody (rest : List Char) : Prop :=
  rest = [] ∨ (∃ more, rest = '}' :: more) ∨ ∃ more, rest = "return ".toList ++ more

/-- No statement starts like the end of a body. -/
theorem Statement.not_endsBody (s : Statement) (h : s.WellSpelled) (rest : List Char) :
    ¬ EndsBody ((s.generate .verbatim).toList ++ rest) := by
  obtain ⟨more, hs⟩ := s.generate_lead rest
  have hword := s.lead_word h
  rw [hs]
  rintro (hempty | ⟨more', hbrace⟩ | ⟨more', hreturn⟩)
  · simp at hempty
  · obtain ⟨c, cs, htext, hc, -⟩ := isWord_cons hword
    rw [htext] at hbrace
    obtain rfl := (List.cons.inj hbrace).1
    exact absurd hc (by decide)
  · have hreturn : s.lead.1.toList ++ s.lead.2 :: more = "return".toList ++ ' ' :: more' := hreturn
    obtain ⟨hword, hchar, -⟩ := word_unique hword rfl s.lead_char rfl hreturn
    cases s <;> simp [lead] at hword hchar

/-! ## Functions -/

theorem Resolver.within_verbatim (bound : List String) :
    Resolver.verbatim.within bound = .verbatim := by
  funext name
  simp [within, verbatim]

/-- The head of a function reads like a call of it with its own parameters. -/
def headCall (name : String) (params : List String) : Call :=
  ⟨name, params.map fun param => (Factor.variable param .start).toExpression, .start⟩

theorem generate_variable (name : String) :
    (Factor.variable name .start).toExpression.generate .verbatim = name := by
  simp [Factor.toExpression, Expression.generate, Term.generate, Factor.generate, generateAddends,
    generateMultipliers, wrapIf, Resolver.verbatim]

theorem generate_moreParameters (param : String) (params : List String) :
    ",".intercalate (param :: params) = param ++ generateArguments .verbatim
      (params.map fun param => (Factor.variable param .start).toExpression) := by
  induction params generalizing param with
  | nil => rw [String.intercalate_singleton, List.map_nil, generateArguments, String.append_empty]
  | cons next params ih =>
      rw [String.intercalate_cons_cons, ih next, List.map_cons, generateArguments,
        generate_variable, String.append_assoc, String.append_assoc]

theorem generate_headCall (name : String) (params : List String) :
    (headCall name params).generate .verbatim = name ++ "(" ++ ",".intercalate params ++ ")" := by
  cases params with
  | nil => simp [headCall, Call.generate, String.append_assoc]
  | cons param params =>
      rw [generate_moreParameters, headCall, List.map_cons, Call.generate, generate_variable,
        ← String.append_assoc]

theorem Definition.generate_verbatim (name : String) (params : List String)
    (body : List Statement) (returns : Option Expression) (p : Position) :
    generate .verbatim ⟨name, params, body, returns, p⟩ =
      "function " ++ (headCall name params).generate .verbatim ++ "\x7b" ++
        generateScript .verbatim body ++ generateReturns .verbatim returns ++ "\x7d" := by
  have hclose : ")\x7b" = ")" ++ "\x7b" := rfl
  simp only [generate, generate_headCall, Resolver.within_verbatim, hclose, String.append_assoc]

theorem wellSpelled_headCall {name : String} {params : List String} (hname : isName name)
    (hparams : WellSpelledParameters params) : (headCall name params).WellSpelled := by
  refine ⟨hname, ?_⟩
  induction params with
  | nil => trivial
  | cons param params ih =>
      obtain ⟨hparam, hparams⟩ := List.forall_mem_cons.mp hparams
      exact ⟨⟨⟨hparam, trivial⟩, trivial⟩, ih hparams⟩

theorem headCall_injective {name name' : String} {params params' : List String}
    (h : (headCall name params).mapPositions (fun _ => .start) =
      (headCall name' params').mapPositions fun _ => .start) :
    name = name' ∧ params = params' := by
  obtain ⟨hname, hargs, -⟩ := Call.mk.inj h
  refine ⟨hname, ?_⟩
  clear h
  induction params generalizing params' with
  | nil => cases params' with
    | nil => rfl
    | cons => cases hargs
  | cons param params ih => cases params' with
    | nil => cases hargs
    | cons param' params' =>
        obtain ⟨hparam, hparams⟩ := List.cons.inj hargs
        have hparam : param = param' := by
          simpa [Expression.mapPositions, Term.mapPositions, Factor.mapPositions,
            Factor.toExpression] using hparam
        rw [ih hparams, hparam]

theorem endsBody_brace (rest : List Char) : EndsBody ("\x7d".toList ++ rest) :=
  .inr (.inl ⟨rest, rfl⟩)

theorem endsBody_returns (returns : Option Expression) (rest : List Char) :
    EndsBody ((generateReturns .verbatim returns).toList ++ ("\x7d".toList ++ rest)) := by
  cases returns with
  | none => exact endsBody_brace rest
  | some value =>
      simp only [generateReturns, String.toList_append, List.append_assoc]
      exact .inr (.inr ⟨_, rfl⟩)

/-- The closing brace of a function tells whether there is a return statement
in front of it. -/
theorem returns_unique {returns returns' : Option Expression} (h : WellSpelledReturns returns)
    (h' : WellSpelledReturns returns') {rest rest' : List Char}
    (heq : (generateReturns .verbatim returns).toList ++ ("\x7d".toList ++ rest) =
      (generateReturns .verbatim returns').toList ++ ("\x7d".toList ++ rest')) :
    returns.map (Expression.mapPositions fun _ => .start) =
      returns'.map (Expression.mapPositions fun _ => .start) ∧ rest = rest' := by
  match returns, returns' with
  | none, none => exact ⟨rfl, List.append_cancel_left heq⟩
  | none, some _ | some _, none =>
      simp only [generateReturns, String.toList_append, List.append_assoc] at heq
      exact absurd (congrArg List.head? heq) (by simp)
  | some value, some value' =>
      simp only [generateReturns, String.toList_append, List.append_assoc] at heq
      obtain ⟨hvalue, hrests⟩ := value.shows h _ _ _ h' (closes_semicolon _) (closes_semicolon _)
        (List.append_cancel_left heq)
      exact ⟨congrArg some hvalue, List.append_cancel_left (List.append_cancel_left hrests)⟩

/-! ## Scripts -/

mutual

theorem Statement.shows : (s : Statement) → s.WellSpelled →
    Shows (Statement.generate .verbatim) (Statement.mapPositions fun _ => .start)
      Statement.WellSpelled (fun _ => True) s
  | .definition d, h => by
      intro s' rest rest' h' _ _ heq
      match s', Statement.form_eq h h' heq with
      | .definition d', _ =>
          obtain ⟨hd, hrests⟩ := d.shows h d' rest rest' h' trivial trivial heq
          exact ⟨congrArg Statement.definition hd, hrests⟩
  | .declaration d, h => by
      intro s' rest rest' h' _ _ heq
      match s', Statement.form_eq h h' heq with
      | .declaration d', _ =>
          obtain ⟨hd, hrests⟩ := (d.shows h).semicolon d' rest rest' h' trivial trivial heq
          exact ⟨congrArg Statement.declaration hd, hrests⟩
  | .assignment a, h => by
      intro s' rest rest' h' _ _ heq
      match s', Statement.form_eq h h' heq with
      | .assignment a', _ =>
          obtain ⟨ha, hrests⟩ := (a.shows h).semicolon a' rest rest' h' trivial trivial heq
          exact ⟨congrArg Statement.assignment ha, hrests⟩
  | .conditional c, h => by
      intro s' rest rest' h' _ _ heq
      match s', Statement.form_eq h h' heq with
      | .conditional c', _ =>
          obtain ⟨hc, hrests⟩ := c.shows h c' rest rest' h' trivial trivial heq
          exact ⟨congrArg Statement.conditional hc, hrests⟩
  | .loop l, h => by
      intro s' rest rest' h' _ _ heq
      match s', Statement.form_eq h h' heq with
      | .loop l', _ =>
          obtain ⟨hl, hrests⟩ := l.shows h l' rest rest' h' trivial trivial heq
          exact ⟨congrArg Statement.loop hl, hrests⟩
  | .call c, h => by
      intro s' rest rest' h' _ _ heq
      match s', Statement.form_eq h h' heq with
      | .call c', _ =>
          obtain ⟨hc, hrests⟩ := (c.shows h).semicolon c' rest rest' h' trivial trivial heq
          exact ⟨congrArg Statement.call hc, hrests⟩

theorem Definition.shows : (d : Definition) → d.WellSpelled →
    Shows (Definition.generate .verbatim) (Definition.mapPositions fun _ => .start)
      Definition.WellSpelled (fun _ => True) d
  | ⟨name, params, body, returns, p⟩, ⟨hname, hparams, hbody, hreturns⟩ => by
      rintro ⟨name', params', body', returns', p'⟩ rest rest' ⟨hname', hparams', hbody', hreturns'⟩
        - - heq
      simp only [Definition.generate_verbatim, String.toList_append, List.append_assoc] at heq
      have hhead := wellSpelled_headCall hname hparams
      have hhead' := wellSpelled_headCall hname' hparams'
      obtain ⟨hcall, hbraces⟩ := (headCall name params).shows hhead _ _ _ hhead' (closes_brace _)
        (closes_brace _) (List.append_cancel_left heq)
      obtain ⟨rfl, rfl⟩ := headCall_injective hcall
      obtain ⟨hstatements, hclose⟩ := script_shows body hbody _ _ _ hbody' (endsBody_returns _ _)
        (endsBody_returns _ _) (List.append_cancel_left hbraces)
      obtain ⟨hvalue, hrests⟩ := returns_unique hreturns hreturns' hclose
      exact ⟨by rw [Definition.mapPositions, Definition.mapPositions, hstatements, hvalue], hrests⟩

theorem Conditional.shows : (c : Conditional) → c.WellSpelled →
    Shows (Conditional.generate .verbatim) (Conditional.mapPositions fun _ => .start)
      Conditional.WellSpelled (fun _ => True) c
  | ⟨condition, body, p⟩, ⟨hcondition, hbody⟩ => by
      rintro ⟨condition', body', p'⟩ rest rest' ⟨hcondition', hbody'⟩ - - heq
      simp only [Conditional.generate, String.toList_append, List.append_assoc] at heq
      obtain ⟨htest, heq⟩ := condition.shows hcondition _ _ _ hcondition' (closes_bracket _)
        (closes_bracket _) (List.append_cancel_left heq)
      obtain ⟨hstatements, heq⟩ := script_shows body hbody _ _ _ hbody' (endsBody_brace _)
        (endsBody_brace _) (List.append_cancel_left heq)
      exact ⟨by rw [Conditional.mapPositions, Conditional.mapPositions, htest, hstatements],
        List.append_cancel_left heq⟩

theorem Loop.shows : (l : Loop) → l.WellSpelled →
    Shows (Loop.generate .verbatim) (Loop.mapPositions fun _ => .start) Loop.WellSpelled
      (fun _ => True) l
  | ⟨init, condition, step, body, p⟩, ⟨hinit, hcondition, hstep, hbody⟩ => by
      rintro ⟨init', condition', step', body', p'⟩ rest rest'
        ⟨hinit', hcondition', hstep', hbody'⟩ - - heq
      simp only [Loop.generate, String.toList_append, List.append_assoc] at heq
      obtain ⟨hdeclared, heq⟩ := init.shows hinit _ _ _ hinit' (closes_semicolon _)
        (closes_semicolon _) (List.append_cancel_left heq)
      obtain ⟨htest, heq⟩ := condition.shows hcondition _ _ _ hcondition' (closes_semicolon _)
        (closes_semicolon _) (List.append_cancel_left heq)
      obtain ⟨hassigned, heq⟩ := step.shows hstep _ _ _ hstep' (closes_bracket _)
        (closes_bracket _) (List.append_cancel_left heq)
      obtain ⟨hstatements, heq⟩ := script_shows body hbody _ _ _ hbody' (endsBody_brace _)
        (endsBody_brace _) (List.append_cancel_left heq)
      exact ⟨by rw [Loop.mapPositions, Loop.mapPositions, hdeclared, htest, hassigned, hstatements],
        List.append_cancel_left heq⟩

/-- Statements show where each of them ends, so only the end of the body has
to be visible in what follows them. -/
theorem script_shows : (ss : List Statement) → WellSpelledStatements ss →
    Shows (generateScript .verbatim) (mapStatements fun _ => .start) WellSpelledStatements
      EndsBody ss
  | [], _ => by
      intro ss' rest rest' h' hrest _ heq
      cases ss' with
      | nil => exact ⟨rfl, heq⟩
      | cons s' ss' =>
          simp only [generateScript, String.toList_append, List.append_assoc] at heq
          have hends : EndsBody ("".toList ++ rest) := hrest
          exact absurd (heq ▸ hends) (s'.not_endsBody h'.1 _)
  | s :: ss, h => by
      intro ss' rest rest' h' hrest hrest' heq
      cases ss' with
      | nil =>
          simp only [generateScript, String.toList_append, List.append_assoc] at heq
          have hends : EndsBody ("".toList ++ rest') := hrest'
          exact absurd (heq ▸ hends) (s.not_endsBody h.1 _)
      | cons s' ss' =>
          simp only [generateScript, String.toList_append, List.append_assoc] at heq
          obtain ⟨hfirst, heq⟩ := s.shows h.1 s' _ _ h'.1 trivial trivial heq
          obtain ⟨hmore, hrests⟩ := script_shows ss h.2 ss' _ _ h'.2 hrest hrest' heq
          exact ⟨by rw [mapStatements, mapStatements, hfirst, hmore], hrests⟩

end

/-- No two scripts have one target code, and no two conditions have, but for
the places where they stand in their sources. -/
theorem generate_verbatim_injective :
    (∀ ss ss' : List Statement, WellSpelledStatements ss → WellSpelledStatements ss' →
      generateScript .verbatim ss = generateScript .verbatim ss' →
      (Fragment.script ss).erasePositions = (Fragment.script ss').erasePositions) ∧
    ∀ c c' : Condition, c.WellSpelled → c'.WellSpelled →
      c.generate .verbatim = c'.generate .verbatim →
      (Fragment.condition c).erasePositions = (Fragment.condition c').erasePositions := by
  refine ⟨fun ss ss' h h' heq => ?_, fun c c' h h' heq => ?_⟩
  · have htext := congrArg (String.toList · ++ []) heq
    obtain ⟨hss, -⟩ := script_shows ss h ss' [] [] h' (.inl rfl) (.inl rfl) htext
    exact congrArg Fragment.script hss
  · have htext := congrArg (String.toList · ++ ";".toList) heq
    obtain ⟨hc, -⟩ := c.shows h c' _ _ h' (closes_semicolon []) (closes_semicolon []) htext
    exact congrArg Fragment.condition hc

/-- A function `next`, and a call of it, with all tokens at one place. -/
def incrementScript (p : Position) : List Statement :=
  [.definition ⟨"next", ["a"], [],
      some ⟨⟨.variable "a" p, []⟩, [(.plus, ⟨.integer "1", []⟩)]⟩, p⟩,
    .call ⟨"next", [(Factor.variable "b" p).toExpression], p⟩]

/-- The comparison `next(b) > 1`, negated. -/
def incrementGuard (p : Position) : Condition :=
  ⟨⟨⟨true, (Factor.call ⟨"next", [(Factor.variable "b" p).toExpression], p⟩).toExpression,
    some (.greater, (Factor.integer "1").toExpression)⟩, []⟩, []⟩

theorem wellSpelled_increment (p : Position) :
    WellSpelledStatements (incrementScript p) ∧ (incrementGuard p).WellSpelled := by
  have hnext : isName "next" := by decide
  have ha : isName "a" := by decide
  have hb : isName "b" := by decide
  have hone : isDigits "1" := by decide
  have hparams : WellSpelledParameters ["a"] := List.forall_mem_singleton.mpr ha
  have hargs : WellSpelledArguments [(Factor.variable "b" p).toExpression] :=
    ⟨⟨⟨hb, trivial⟩, trivial⟩, trivial⟩
  have hsum : Expression.WellSpelled
      ⟨⟨.variable "a" p, []⟩, [(.plus, ⟨.integer "1", []⟩)]⟩ :=
    ⟨⟨ha, trivial⟩, ⟨hone, trivial⟩, trivial⟩
  exact ⟨⟨⟨hnext, hparams, trivial, hsum⟩, ⟨hnext, hargs⟩, trivial⟩,
    ⟨⟨⟨⟨⟨⟨hnext, hargs⟩, trivial⟩, trivial⟩, ⟨hone, trivial⟩, trivial⟩, trivial⟩, trivial⟩⟩

/-- A script and a guard from the start of a text, and the same from its
second line. -/
theorem increment_unique :
    let p : Position := Position.start.advance '\n'
    (Fragment.script (incrementScript .start)).erasePositions =
        (Fragment.script (incrementScript p)).erasePositions ∧
      (Fragment.condition (incrementGuard .start)).erasePositions =
        (Fragment.condition (incrementGuard p)).erasePositions := by
  intro p
  exact ⟨generate_verbatim_injective.1 _ _ (wellSpelled_increment _).1 (wellSpelled_increment _).1
      (by cbv),
    generate_verbatim_injective.2 _ _ (wellSpelled_increment _).2 (wellSpelled_increment _).2
      (by cbv)⟩

end WorkflowScript
