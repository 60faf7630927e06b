import WorkflowScript.Proofs.Target.Reader
import WorkflowScript.Proofs.Token.Spelling

/-!
# The reader reads what a tree spells

A tree is proper if its brackets are where the ranks of its operators demand
them, on the right of an operator also against operators of the same rank.
For a proper and well-spelled tree, `read` takes the text of the tree back to
the tree (`read_text`). So a text determines the tree: two proper trees with
one text are the same.
-/

namespace WorkflowScript.Target

open WorkflowScript.Lexical

/-! ## Trees as tokens and as text -/

mutual

def Tree.tokens : Tree → List Token
  | .name text => [.name text]
  | .number text => [.number text]
  | .string text => [.string text]
  | .bool value => [.bool value]
  | .call callee [] => callee.tokens ++ [.leftParen, .rightParen]
  | .call callee (arg :: args) =>
    callee.tokens ++ [.leftParen] ++ arg.tokens ++ tokensOfMore args ++ [.rightParen]
  | .not operand => [.not] ++ operand.tokens
  | .binary op left right => left.tokens ++ [.operator op] ++ right.tokens
  | .paren inner => [.leftParen] ++ inner.tokens ++ [.rightParen]

/-- Further arguments, each behind a comma. -/
def tokensOfMore : List Tree → List Token
  | [] => []
  | t :: ts => [.comma] ++ t.tokens ++ tokensOfMore ts

end

mutual

def Tree.text : Tree → String
  | .name text => text
  | .number text => text
  | .string text => text
  | .bool true => "true"
  | .bool false => "false"
  | .call callee [] => callee.text ++ "()"
  | .call callee (arg :: args) => callee.text ++ "(" ++ arg.text ++ textOfMore args ++ ")"
  | .not operand => "!" ++ operand.text
  | .binary op left right => left.text ++ op.symbol ++ right.text
  | .paren inner => "(" ++ inner.text ++ ")"

def textOfMore : List Tree → String
  | [] => ""
  | t :: ts => "," ++ t.text ++ textOfMore ts

end

/-! ## Proper trees -/

/-- The rank of the operator at the root. -/
def Tree.rank : Tree → Nat
  | .not _ => 1
  | .binary op _ _ => op.rank
  | _ => 0

mutual

def Tree.Proper : Tree → Prop
  | .call callee args => callee.rank = 0 ∧ callee.Proper ∧ ProperArguments args
  | .not operand => operand.rank ≤ 1 ∧ operand.Proper
  | .binary op left right =>
    left.rank ≤ op.rank ∧ right.rank < op.rank ∧ left.Proper ∧ right.Proper
  | .paren inner => inner.Proper
  | .name _ | .number _ | .string _ | .bool _ => True

def ProperArguments : List Tree → Prop
  | [] => True
  | t :: ts => t.Proper ∧ ProperArguments ts

end

mutual

def Tree.WellSpelled : Tree → Prop
  | .name text => isName text
  | .number text => isDigits text
  | .string text => isQuoted text
  | .bool _ => True
  | .call callee args => callee.WellSpelled ∧ WellSpelledTrees args
  | .not operand => operand.WellSpelled
  | .binary _ left right => left.WellSpelled ∧ right.WellSpelled
  | .paren inner => inner.WellSpelled

def WellSpelledTrees : List Tree → Prop
  | [] => True
  | t :: ts => t.WellSpelled ∧ WellSpelledTrees ts

end

theorem Operator.rank_pos (op : Operator) : 2 ≤ op.rank := by
  cases op <;> decide

theorem Operator.rank_le (op : Operator) : op.rank ≤ loosest := by
  cases op <;> decide

theorem Tree.rank_le (t : Tree) : t.rank ≤ loosest := by
  cases t with
  | binary op _ _ => exact op.rank_le
  | _ => simp [rank, loosest]

/-! ## From text to tokens -/

theorem lex_cons {c : Char} {cs rest : List Char} {t : Token}
    (h : splitToken c cs = some (t, rest)) : lex (c :: cs) = (lex rest).map (t :: ·) := by
  rw [lex]
  split
  next h' => rw [h'] at h; cases h
  next h' => rw [h'] at h; cases h; rfl

/-- The text is read as these tokens in front of `rest`. -/
def Lexes (text : String) (rest : List Char) (ts : List Token) : Prop :=
  lex (text.toList ++ rest) = (lex rest).map (ts ++ ·)

namespace Lexes

theorem nil {rest : List Char} : Lexes "" rest [] := by
  simp [Lexes]

theorem append {text text' : String} {rest : List Char} {ts us : List Token}
    (h : Lexes text (text'.toList ++ rest) ts) (h' : Lexes text' rest us) :
    Lexes (text ++ text') rest (ts ++ us) := by
  unfold Lexes at h h' ⊢
  rw [String.toList_append, List.append_assoc, h, h', Option.map_map]
  simp [Function.comp_def]

theorem operator (op : Operator) (rest : List Char) :
    Lexes op.symbol rest [.operator op] := by
  cases op <;> exact lex_cons rfl

theorem leftParen (rest : List Char) : Lexes "(" rest [.leftParen] := lex_cons rfl

theorem rightParen (rest : List Char) : Lexes ")" rest [.rightParen] := lex_cons rfl

theorem comma (rest : List Char) : Lexes "," rest [.comma] := lex_cons rfl

theorem not (rest : List Char) : Lexes "!" rest [.not] := lex_cons rfl

theorem word {text : String} {rest : List Char} (h : isWord text) (hrest : Ends rest) :
    Lexes text rest [.ofWord text] := by
  unfold isWord at h
  split at h
  next => cases h
  next c cs htext =>
      obtain ⟨hc, hcs⟩ := Bool.and_eq_true_iff.mp h
      obtain ⟨htake, hdrop⟩ := hrest.span (fun _ => id) hcs
      unfold Lexes
      rw [htext, List.cons_append]
      refine lex_cons ?_
      rw [splitToken, if_pos hc, htake, hdrop, ← htext, String.ofList_toList]

theorem name {text : String} {rest : List Char} (h : isName text) (hrest : Ends rest) :
    Lexes text rest [.name text] := by
  obtain ⟨hword, hkeyword⟩ := Bool.and_eq_true_iff.mp h
  have htrue : text ≠ "true" := by
    rintro rfl
    revert hkeyword
    decide
  have hfalse : text ≠ "false" := by
    rintro rfl
    revert hkeyword
    decide
  have hlex := word hword hrest
  rwa [Token.ofWord, if_neg htrue, if_neg hfalse] at hlex

theorem number {text : String} {rest : List Char} (h : isDigits text) (hrest : Ends rest) :
    Lexes text rest [.number text] := by
  obtain ⟨hne, hall⟩ := Bool.and_eq_true_iff.mp h
  unfold Lexes
  cases htext : text.toList with
  | nil => simp [htext] at hne
  | cons c cs =>
      rw [htext] at hall
      obtain ⟨hc, hcs⟩ := Bool.and_eq_true_iff.mp hall
      obtain ⟨htake, hdrop⟩ := hrest.span (p := isDigit) (fun _ => isNamePart_of_isDigit) hcs
      rw [List.cons_append]
      refine lex_cons ?_
      rw [splitToken, if_neg (by simp [isNameStart_of_isDigit hc]), if_pos hc, htake, hdrop,
        ← htext, String.ofList_toList]

theorem string {text : String} (h : isQuoted text) (rest : List Char) :
    Lexes text rest [.string text] := by
  unfold isQuoted at h
  split at h
  next => cases h
  next c cs htext =>
      obtain ⟨hc, hcs⟩ := Bool.and_eq_true_iff.mp h
      obtain rfl := of_decide_eq_true hc
      have hclose := closeString_append_right (of_decide_eq_true hcs) rest
      unfold Lexes
      rw [htext, List.cons_append]
      refine lex_cons ?_
      rw [splitToken, if_neg (by decide), if_neg (by decide), if_pos rfl, hclose]
      simp only [Option.map_some, ← htext, String.ofList_toList, List.nil_append]

end Lexes

theorem Operator.ends (op : Operator) (more : List Char) : Ends (op.symbol.toList ++ more) := by
  cases op <;> rfl

theorem ends_textOfMore (ts : List Tree) {rest : List Char} (h : Ends rest) :
    Ends ((textOfMore ts).toList ++ rest) := by
  cases ts with
  | nil => exact h
  | cons t ts =>
      simp only [textOfMore, String.toList_append, List.append_assoc]
      rfl

mutual

/-- The text of a tree is the text of its tokens. -/
theorem Tree.lexes : (t : Tree) → t.WellSpelled → ∀ {rest}, Ends rest →
    Lexes t.text rest t.tokens
  | .name _, h, _, hrest => .name h hrest
  | .number _, h, _, hrest => .number h hrest
  | .string _, h, rest, _ => .string h rest
  | .bool true, _, _, hrest => Lexes.word (show isWord "true" from rfl) hrest
  | .bool false, _, _, hrest => Lexes.word (show isWord "false" from rfl) hrest
  | .call callee [], h, rest, hrest => by
      have hopen : Ends ("()".toList ++ rest) := rfl
      have hcallee := callee.lexes h.1 hopen
      exact hcallee.append ((Lexes.leftParen (")".toList ++ rest)).append (.rightParen rest))
  | .call callee (arg :: args), h, rest, hrest => by
      obtain ⟨hcallee, harg, hargs⟩ := h
      have hclose : Ends (")".toList ++ rest) := rfl
      have hopen : Ends ("(".toList ++ (arg.text.toList ++
          ((textOfMore args).toList ++ (")".toList ++ rest)))) := rfl
      have hcallee := callee.lexes hcallee hopen
      have harg := arg.lexes harg (ends_textOfMore args hclose)
      have hargs := lexes_more args hargs hclose
      exact (((hcallee.append (.leftParen _)).append harg).append hargs).append (.rightParen rest)
  | .not operand, h, _, hrest => (Lexes.not _).append (operand.lexes h hrest)
  | .binary op left right, h, rest, hrest => by
      have hleft := left.lexes h.1 (op.ends (right.text.toList ++ rest))
      have hright := right.lexes h.2 hrest
      exact (hleft.append (.operator op _)).append hright
  | .paren inner, h, rest, hrest => by
      have hclose : Ends (")".toList ++ rest) := rfl
      have hinner := inner.lexes h hclose
      exact ((Lexes.leftParen _).append hinner).append (.rightParen rest)

theorem lexes_more : (ts : List Tree) → WellSpelledTrees ts → ∀ {rest}, Ends rest →
    Lexes (textOfMore ts) rest (tokensOfMore ts)
  | [], _, _, _ => .nil
  | t :: ts, h, _, hrest => by
      have hfirst := t.lexes h.1 (ends_textOfMore ts hrest)
      exact ((Lexes.comma _).append hfirst).append (lexes_more ts h.2 hrest)

end

/-! ## From tokens to the tree -/

/-- The rank of the phrases that a token goes on with; for a token that goes
on with none, more than any rank. -/
def Token.reach : Token → Nat
  | .leftParen => 0
  | .operator op => op.rank
  | _ => loosest + 1

/-- Nothing goes on with a phrase of the rank here. -/
def Stops (rank : Nat) : List Token → Prop
  | [] => True
  | t :: _ => rank < t.reach

theorem Stops.mono {rank rank' : Nat} {rest : List Token} (h : Stops rank rest)
    (hle : rank' ≤ rank) : Stops rank' rest := by
  cases rest with
  | nil => trivial
  | cons t rest => exact Nat.lt_of_le_of_lt hle h

/-- What goes on behind a phrase of a rank that has been read so far. -/
def resume (inner : Reader Tree) : (rank : Nat) → Nat → Tree → Reader Tree
  | 0 => calls inner
  | 1 => fun _ t ts => some (t, ts)
  | rank + 2 => binaries (rank + 2) (upTo inner (rank + 1))

theorem resume_of_stops {inner : Reader Tree} {rank : Nat} {rest : List Token}
    (h : Stops rank rest) (m : Nat) (t : Tree) : resume inner rank m t rest = some (t, rest) := by
  cases rest with
  | nil => match rank, m with
    | 0, 0 | 0, _ + 1 | 1, _ | _ + 2, 0 | _ + 2, _ + 1 => rfl
  | cons x rest => match rank, m with
    | 0, 0 | 1, _ | _ + 2, 0 => rfl
    | 0, m + 1 =>
        cases x with
        | leftParen => cases h
        | _ => rfl
    | rank + 2, m + 1 =>
        cases x with
        | operator op =>
            have hne : op.rank ≠ rank + 2 := Nat.ne_of_gt h
            simp only [resume, binaries, if_neg hne]
        | _ => rfl

/-- Having read the tree, the reader of a rank is where it would look for
more. Something tighter than the rank must not go on. -/
def Resumes (inner : Reader Tree) (rank : Nat) (t : Tree) : Prop :=
  ∀ rest, (∀ lower < rank, Stops lower rest) →
    ∃ m, rest.length ≤ m ∧ upTo inner rank (t.tokens ++ rest) = resume inner rank m t rest

theorem Resumes.reads {inner : Reader Tree} {rank : Nat} {t : Tree} (h : Resumes inner rank t)
    {rest : List Token} (hrest : Stops rank rest) :
    upTo inner rank (t.tokens ++ rest) = some (t, rest) := by
  obtain ⟨m, -, hm⟩ := h rest fun _ hlt => hrest.mono (Nat.le_of_lt hlt)
  rw [hm, resume_of_stops hrest]

/-- What starts with a call or an operand does not start with a negation. -/
theorem Tree.head_ne_not : (t : Tree) → t.Proper → t.rank = 0 →
    ∀ rest, (t.tokens ++ rest).head? ≠ some .not
  | .name _, _, _, _ | .number _, _, _, _ | .string _, _, _, _ | .bool _, _, _, _ => by
      simp [tokens]
  | .call callee [], h, _, rest => by
      simp only [tokens, List.append_assoc]
      exact callee.head_ne_not h.2.1 h.1 _
  | .call callee (_ :: _), h, _, rest => by
      simp only [tokens, List.append_assoc]
      exact callee.head_ne_not h.2.1 h.1 _
  | .binary op _ _, _, hrank, _ => absurd hrank (Nat.ne_of_gt (Nat.lt_of_lt_of_le (by decide) op.rank_pos))
  | .paren _, _, _, _ => by simp [tokens]

theorem unary_of_head_ne_not {inner : Reader Tree} {ts : List Token} (h : ts.head? ≠ some .not) :
    unary inner ts = operand inner ts := by
  cases ts with
  | nil => rfl
  | cons t ts =>
      cases t with
      | not => exact absurd rfl h
      | _ => rfl

/-- A phrase is a phrase of every looser rank. -/
theorem Resumes.looser {inner : Reader Tree} {rank : Nat} {t : Tree} (h : Resumes inner rank t)
    (hhead : rank = 0 → ∀ rest, (t.tokens ++ rest).head? ≠ some .not) :
    Resumes inner (rank + 1) t := by
  intro rest hrest
  have hread := h.reads (hrest rank (Nat.lt_succ_self rank))
  refine ⟨rest.length, Nat.le_refl _, ?_⟩
  cases rank with
  | zero =>
      exact (unary_of_head_ne_not (hhead rfl rest)).trans hread
  | succ rank =>
      rw [upTo]
      simp only [hread]
      rfl

theorem Resumes.upTo {inner : Reader Tree} {t : Tree} (ht : t.Proper)
    (h : Resumes inner t.rank t) {rank : Nat} (hrank : t.rank ≤ rank) : Resumes inner rank t := by
  induction hrank with
  | refl => exact h
  | @step rank hle ih =>
      have hle : t.rank ≤ rank := hle
      exact ih.looser fun hzero => t.head_ne_not ht (Nat.le_zero.mp (hzero ▸ hle))

/-! One step for each form of tree, over the readers of its parts. -/

theorem operand_of_primary {inner : Reader Tree} {t : Tree} {ts rest : List Token}
    (h : primary inner ts = some (t, rest)) :
    operand inner ts = calls inner rest.length t rest := by
  simp only [operand, h]

theorem Resumes.atom {inner : Reader Tree} {t : Tree} {x : Token} (htokens : t.tokens = [x])
    (h : ∀ rest, primary inner (x :: rest) = some (t, rest)) : Resumes inner 0 t := by
  intro rest _
  rw [htokens]
  exact ⟨rest.length, Nat.le_refl _, operand_of_primary (h rest)⟩

/-- The reader reads the tree in front of whatever closes an expression. -/
def ReadsWhole (inner : Reader Tree) (t : Tree) : Prop :=
  ∀ rest, Stops loosest rest → inner (t.tokens ++ rest) = some (t, rest)

theorem Resumes.paren {inner : Reader Tree} {t : Tree} (h : ReadsWhole inner t) :
    Resumes inner 0 (.paren t) := by
  intro rest _
  have hinner := h (.rightParen :: rest) (Nat.lt_succ_self _)
  have hprimary : primary inner (.leftParen :: (t.tokens ++ .rightParen :: rest)) =
      some (.paren t, rest) := by
    simp only [primary, hinner]
  refine ⟨rest.length, Nat.le_refl _, ?_⟩
  simp only [Tree.tokens, List.append_assoc, List.singleton_append]
  exact operand_of_primary hprimary

theorem Resumes.not {inner : Reader Tree} {t : Tree} (h : Resumes inner 1 t) :
    Resumes inner 1 (.not t) := by
  intro rest hrest
  obtain ⟨m, hm, hread⟩ := h rest hrest
  have hunary : unary inner (t.tokens ++ rest) = some (t, rest) := hread
  refine ⟨m, hm, ?_⟩
  show unary inner (.not :: (t.tokens ++ rest)) = _
  rw [unary, hunary]
  rfl

theorem Resumes.binary {inner : Reader Tree} {op : Operator} {left right : Tree} {rank : Nat}
    (hop : op.rank = rank + 2) (hleft : Resumes inner (rank + 2) left)
    (hright : ∀ rest, Stops (rank + 1) rest →
      Target.upTo inner (rank + 1) (right.tokens ++ rest) = some (right, rest)) :
    Resumes inner (rank + 2) (.binary op left right) := by
  intro rest hrest
  obtain ⟨m, hm, hread⟩ := hleft (.operator op :: (right.tokens ++ rest))
    fun lower hlower => show lower < op.rank from hop ▸ hlower
  have hright := hright rest (hrest (rank + 1) (Nat.lt_succ_self _))
  cases m with
  | zero => cases hm
  | succ m =>
      refine ⟨m, ?_, ?_⟩
      · simp only [List.length_cons, List.length_append] at hm
        omega
      · simp only [Tree.tokens, List.append_assoc, List.cons_append, List.nil_append]
        rw [hread, resume, binaries, if_pos hop, hright]

/-- No tree starts with a closing bracket. -/
theorem Tree.head_ne_rightParen : (t : Tree) → ∀ rest, (t.tokens ++ rest).head? ≠ some .rightParen
  | .name _, _ | .number _, _ | .string _, _ | .bool _, _ => by simp [tokens]
  | .call callee [], rest => by
      simp only [tokens, List.append_assoc]
      exact callee.head_ne_rightParen _
  | .call callee (_ :: _), rest => by
      simp only [tokens, List.append_assoc]
      exact callee.head_ne_rightParen _
  | .not _, _ | .paren _, _ => by simp [tokens]
  | .binary _ left _, rest => by
      simp only [tokens, List.append_assoc]
      exact left.head_ne_rightParen _

theorem stops_tokensOfMore (args : List Tree) (rest : List Token) :
    Stops loosest (tokensOfMore args ++ .rightParen :: rest) := by
  cases args <;> exact Nat.lt_succ_self _

theorem length_le_tokensOfMore (args : List Tree) : args.length ≤ (tokensOfMore args).length := by
  induction args with
  | nil => exact Nat.le_refl _
  | cons t ts ih =>
      simp only [tokensOfMore, List.length_append, List.length_cons]
      omega

theorem moreArguments_reads {inner : Reader Tree} {args : List Tree}
    (h : ∀ t ∈ args, ReadsWhole inner t) (rest : List Token) {m : Nat} (hm : args.length ≤ m) :
    moreArguments inner m (tokensOfMore args ++ .rightParen :: rest) = some (args, rest) := by
  induction args generalizing m with
  | nil => cases m <;> rfl
  | cons t ts ih =>
      obtain ⟨ht, hts⟩ := List.forall_mem_cons.mp h
      cases m with
      | zero => cases hm
      | succ m =>
          have hfirst := ht _ (stops_tokensOfMore ts rest)
          have hrest := ih hts (Nat.le_of_succ_le_succ hm)
          simp only [tokensOfMore, List.append_assoc, List.cons_append, List.nil_append,
            moreArguments, hfirst, hrest, Option.map_some]

theorem arguments_reads {inner : Reader Tree} {first : Tree} {args : List Tree}
    (h : ∀ t ∈ first :: args, ReadsWhole inner t) (rest : List Token) :
    arguments inner (first.tokens ++ (tokensOfMore args ++ .rightParen :: rest)) =
      some (first :: args, rest) := by
  obtain ⟨hfirst, hargs⟩ := List.forall_mem_cons.mp h
  have hlength : args.length ≤ (tokensOfMore args ++ .rightParen :: rest).length := by
    have := length_le_tokensOfMore args
    rw [List.length_append]
    omega
  have hread := hfirst _ (stops_tokensOfMore args rest)
  have hmore := moreArguments_reads hargs rest hlength
  have hhead := first.head_ne_rightParen (tokensOfMore args ++ .rightParen :: rest)
  generalize first.tokens ++ (tokensOfMore args ++ .rightParen :: rest) = ts at hread hhead ⊢
  unfold arguments
  split
  next => exact absurd rfl hhead
  next => simp only [hread, hmore, Option.map_some]

theorem Resumes.call {inner : Reader Tree} {callee : Tree} {args : List Tree} (ts : List Token)
    (hcallee : Resumes inner 0 callee)
    (htokens : (Tree.call callee args).tokens = callee.tokens ++ .leftParen :: ts)
    (hargs : ∀ rest, arguments inner (ts ++ rest) = some (args, rest)) :
    Resumes inner 0 (.call callee args) := by
  intro rest _
  obtain ⟨m, hm, hread⟩ := hcallee (.leftParen :: (ts ++ rest)) fun _ hlt => absurd hlt (by omega)
  cases m with
  | zero => cases hm
  | succ m =>
      refine ⟨m, ?_, ?_⟩
      · simp only [List.length_cons, List.length_append] at hm
        omega
      · rw [htokens, List.append_assoc, List.cons_append, hread]
        simp only [resume, calls, hargs rest]

mutual

/-- A proper tree is read back from its tokens if the reader goes deep
enough, as it does with one level for each token. -/
theorem Tree.resumes : (t : Tree) → t.Proper → ∀ depth, t.tokens.length ≤ depth + 1 →
    Resumes (expression depth) t.rank t
  | .name _, _, _, _ | .number _, _, _, _ | .string _, _, _, _ | .bool _, _, _, _ =>
      .atom rfl fun _ => rfl
  | .call callee [], h, depth, hdepth => by
      simp only [Tree.tokens, List.length_append, List.length_cons] at hdepth
      have hcallee := callee.resumes h.2.1 depth (by omega)
      rw [h.1] at hcallee
      exact .call [.rightParen] hcallee rfl fun _ => rfl
  | .call callee (arg :: args), h, depth, hdepth => by
      simp only [Tree.tokens, List.length_append, List.length_cons, List.length_nil] at hdepth
      have hcallee := callee.resumes h.2.1 depth (by omega)
      rw [h.1] at hcallee
      cases depth with
      | zero => omega
      | succ depth =>
          have harg := arg.resumes h.2.2.1 depth (by omega)
          have hmore := readsWhole_arguments args h.2.2.2 depth (by omega)
          have hargs := List.forall_mem_cons.mpr
            ⟨fun _ => (harg.upTo h.2.2.1 arg.rank_le).reads, hmore⟩
          refine .call (arg.tokens ++ tokensOfMore args ++ [.rightParen]) hcallee ?_
            fun rest => ?_
          · simp only [Tree.tokens, List.append_assoc, List.cons_append, List.nil_append]
          · have hread := arguments_reads hargs rest
            simpa only [List.append_assoc, List.cons_append, List.nil_append] using hread
  | .not operand, h, depth, hdepth => by
      simp only [Tree.tokens, List.length_append, List.length_cons] at hdepth
      have hoperand := operand.resumes h.2 depth (by omega)
      exact (hoperand.upTo h.2 h.1).not
  | .binary op left right, h, depth, hdepth => by
      obtain ⟨hleftRank, hrightRank, hleft, hright⟩ := h
      simp only [Tree.tokens, List.length_append, List.length_cons] at hdepth
      have hreadLeft := left.resumes hleft depth (by omega)
      have hreadRight := right.resumes hright depth (by omega)
      obtain ⟨rank, hop⟩ := Nat.exists_eq_add_of_le' op.rank_pos
      have hlower : right.rank ≤ rank + 1 := by omega
      show Resumes _ op.rank _
      rw [hop] at hleftRank ⊢
      exact .binary hop (hreadLeft.upTo hleft hleftRank) fun _ =>
        (hreadRight.upTo hright hlower).reads
  | .paren inner, h, depth, hdepth => by
      simp only [Tree.tokens, List.length_append, List.length_cons] at hdepth
      cases depth with
      | zero => omega
      | succ depth =>
          have hproper : inner.Proper := h
          have hinner := inner.resumes hproper depth (by omega)
          exact .paren fun _ => (hinner.upTo hproper inner.rank_le).reads

theorem readsWhole_arguments : (ts : List Tree) → ProperArguments ts → ∀ depth,
    (tokensOfMore ts).length ≤ depth + 1 → ∀ t ∈ ts, ReadsWhole (expression (depth + 1)) t
  | [], _, _, _ => by simp
  | t :: ts, h, depth, hdepth => by
      simp only [tokensOfMore, List.length_append, List.length_cons] at hdepth
      have hfirst := t.resumes h.1 depth (by omega)
      have hrest := readsWhole_arguments ts h.2 depth (by omega)
      exact List.forall_mem_cons.mpr ⟨fun _ => (hfirst.upTo h.1 t.rank_le).reads, hrest⟩

end

theorem Tree.tokens_ne_nil (t : Tree) : t.tokens ≠ [] := by
  cases t with
  | call callee args => cases args <;> simp [tokens]
  | _ => simp [tokens]

theorem Tree.lex_text {t : Tree} (h : t.WellSpelled) : lex t.text.toList = some t.tokens := by
  have hlexes := t.lexes h (show Ends [] from trivial)
  rw [Lexes, List.append_nil] at hlexes
  simp [hlexes, lex]

/-- The reader stops behind the tokens of a proper tree. -/
theorem Tree.expression_tokens {t : Tree} (h : t.Proper) {rest : List Token}
    (hrest : Stops loosest rest) {depth : Nat} (hdepth : t.tokens.length ≤ depth) :
    expression depth (t.tokens ++ rest) = some (t, rest) := by
  cases depth with
  | zero => exact absurd (List.length_eq_zero_iff.mp (Nat.le_zero.mp hdepth)) t.tokens_ne_nil
  | succ depth => exact ((t.resumes h depth hdepth).upTo h t.rank_le).reads hrest

/-- The reader takes the text of a proper tree back to the tree. -/
theorem read_text {t : Tree} (ht : t.Proper) (hspelled : t.WellSpelled) :
    read t.text = some t := by
  have hexpression : expression t.tokens.length t.tokens = some (t, []) := by
    have hread := Tree.expression_tokens ht (show Stops loosest [] from trivial) (Nat.le_refl _)
    rwa [List.append_nil] at hread
  simp only [read, Tree.lex_text hspelled, hexpression]

end WorkflowScript.Target
