import WorkflowScript.Proofs.Token.Lexing
import Mathlib.Data.List.Induction

/-!
# Tokens and their places in the text

The tokens of a text lie in it side by side, with nothing but blanks and
comments between them (`Tiles`), and the position of each one counts the
characters before it: their bytes, their lines, and the characters of the
last line (`Position.Marks`). Everything else about places follows from
these two: a token is the slice of the text at its offset, tokens do not
overlap, and offsets increase (`tokenize_lossless`).

The scanner counts while it moves. `Position.marks_advanceBy` is the one place
where its counters are compared with counts made afresh.
-/

namespace WorkflowScript

/-! ## Sizes in bytes -/

/-- The bytes that characters take. -/
def byteSize : List Char → Nat
  | [] => 0
  | c :: cs => c.utf8Size + byteSize cs

@[simp] theorem byteSize_nil : byteSize [] = 0 := rfl

@[simp] theorem byteSize_cons (c : Char) (cs : List Char) :
    byteSize (c :: cs) = c.utf8Size + byteSize cs := rfl

@[simp] theorem byteSize_append (cs ds : List Char) :
    byteSize (cs ++ ds) = byteSize cs + byteSize ds := by
  induction cs with
  | nil => simp
  | cons c cs ih => simp [ih, Nat.add_assoc]

theorem byteSize_pos {cs : List Char} (h : cs ≠ []) : 0 < byteSize cs := by
  cases cs with
  | nil => exact absurd rfl h
  | cons c cs => exact Nat.add_pos_left c.utf8Size_pos _

theorem utf8ByteSize_ofList (cs : List Char) : (String.ofList cs).utf8ByteSize = byteSize cs := by
  induction cs with
  | nil => rfl
  | cons c cs ih =>
      rw [String.ofList_cons, String.utf8ByteSize_append, String.utf8ByteSize_singleton, ih]
      rfl

theorem byteSize_toList (text : String) : byteSize text.toList = text.utf8ByteSize := by
  rw [← utf8ByteSize_ofList, String.ofList_toList]

/-! ## Counting afresh -/

/-- The position of what stands behind the characters `before`: their
bytes, one line more than they have line feeds, and one column more than
they have characters on their last line. -/
structure Position.Marks (p : Position) (before : List Char) : Prop where
  offset : p.offset = byteSize before
  line : p.line = 1 + before.count '\n'
  column : p.column = 1 + (before.reverse.takeWhile (· ≠ '\n')).length

theorem Position.marks_advanceBy (before : List Char) : (start.advanceBy before).Marks before := by
  induction before using List.reverseRecOn with
  | nil => exact ⟨rfl, rfl, rfl⟩
  | append_singleton before c ih =>
      rw [advanceBy_append, advanceBy_cons, advanceBy_nil]
      unfold advance
      split
      next hc =>
          refine ⟨?_, ?_, ?_⟩
          · simp [ih.offset]
          · simp [ih.line, hc, Nat.add_assoc]
          · simp [hc]
      next hc =>
          refine ⟨?_, ?_, ?_⟩
          · simp [ih.offset]
          · simp [ih.line, hc]
          · simp [ih.column, hc, Nat.add_assoc]

open Lexical

/-! ## Tilings -/

/-- Behind the characters `before`, the text `after` consists of the tokens
and of trivia in front of each one, and the last token is the end of the
input and the only one of its kind. -/
inductive Tiles : (before after : List Char) → List Token → Prop
  | atEnd {before gap p} : IsTrivia [] gap → p.Marks (before ++ gap) → Tiles before gap [.atEnd p]
  | token {before gap rest t ts} : IsTrivia (t.text.toList ++ rest) gap →
      t.position.Marks (before ++ gap) → t.text ≠ "" → t.kind ≠ .endOfInput →
      Tiles (before ++ gap ++ t.text.toList) rest ts →
      Tiles before (gap ++ t.text.toList ++ rest) (t :: ts)

namespace Tiles

variable {before after : List Char} {ts : List Token}

/-- The end of the input stands behind the whole text. -/
theorem ends (h : Tiles before after ts) :
    ∃ body p, ts = body ++ [.atEnd p] ∧ p.Marks (before ++ after) ∧
      ∀ t ∈ body, t.kind ≠ .endOfInput := by
  induction h with
  | atEnd _ hp => exact ⟨[], _, rfl, hp, fun _ ht => nomatch ht⟩
  | @token before gap rest t ts _ _ _ hkind _ ih =>
      obtain ⟨body, p, rfl, hp, hbody⟩ := ih
      refine ⟨t :: body, p, rfl, ?_, List.forall_mem_cons.mpr ⟨hkind, hbody⟩⟩
      simpa only [List.append_assoc] using hp

/-- Every token stands somewhere in the text, and its position says where. -/
theorem placed (h : Tiles before after ts) :
    ∀ t ∈ ts, ∃ front back, before ++ after = before ++ front ++ t.text.toList ++ back ∧
      t.position.Marks (before ++ front) := by
  induction h with
  | @atEnd before gap p _ hp =>
      intro t ht
      obtain rfl := List.mem_singleton.mp ht
      exact ⟨gap, [], by simp [Token.atEnd], hp⟩
  | @token before gap rest t ts _ hp _ _ _ ih =>
      refine List.forall_mem_cons.mpr ⟨⟨gap, rest, ?_, hp⟩, fun u hu => ?_⟩
      · simp only [List.append_assoc]
      · obtain ⟨front, back, htext, hmarks⟩ := ih u hu
        refine ⟨gap ++ t.text.toList ++ front, back, ?_, ?_⟩
        · simpa only [List.append_assoc] using htext
        · simpa only [List.append_assoc] using hmarks

theorem byteSize_le_offset (h : Tiles before after ts) :
    ∀ t ∈ ts, byteSize before ≤ t.position.offset := by
  intro t ht
  obtain ⟨front, _, -, hmarks⟩ := h.placed t ht
  rw [hmarks.offset, byteSize_append]
  exact Nat.le_add_right _ _

/-- A token begins where the ones before it have ended. -/
theorem pairwise (h : Tiles before after ts) :
    ts.Pairwise fun t u => t.position.offset + t.text.utf8ByteSize ≤ u.position.offset ∧
      t.position.offset < u.position.offset := by
  induction h with
  | atEnd => exact List.pairwise_singleton ..
  | @token before gap rest t ts _ hp htext _ hrest ih =>
      refine List.pairwise_cons.mpr ⟨fun u hu => ?_, ih⟩
      have hle := hrest.byteSize_le_offset u hu
      have hpos : 0 < byteSize t.text.toList :=
        byteSize_pos fun hnil => htext (String.toList_eq_nil_iff.mp hnil)
      rw [byteSize_append, ← hp.offset] at hle
      rw [← byteSize_toList]
      omega

end Tiles

/-! ## The tokens of a text -/

/-- What a text lexes as tiles it. -/
theorem Lexes.tiles (before : List Char) {after : List Char} {ts : List Token} {q : Position}
    (h : Lexes (Position.start.advanceBy before) after ts q) :
    Tiles before after (ts ++ [.atEnd q]) := by
  generalize hstart : Position.start.advanceBy before = p at h
  induction h generalizing before with
  | @nil p gap hgap =>
      have hmarks := Position.marks_advanceBy (before ++ gap)
      rw [Position.advanceBy_append, hstart] at hmarks
      exact .atEnd hgap hmarks
  | @cons p gap rest t ts q hgap hsplits hp _ ih =>
      have hmarks := Position.marks_advanceBy (before ++ gap)
      rw [Position.advanceBy_append, hstart, ← hp] at hmarks
      have htext : t.text ≠ "" := mt String.toList_eq_nil_iff.mpr hsplits.ne_nil
      have hrest := ih (before ++ gap ++ t.text.toList) (by
        rw [Position.advanceBy_append, Position.advanceBy_append, hstart, hp])
      rw [← List.append_assoc]
      exact .token hgap hmarks htext hsplits.kind_ne hrest

theorem tiles_tokenize (text : String) : Tiles [] text.toList (tokenize text) := by
  obtain ⟨ts, q, hts⟩ := exists_lexes .start text.toList
  rw [hts.tokenize_eq]
  exact hts.tiles []

/-- Every token stands within the text. -/
theorem lexemes_within (text : String) :
    ∀ t ∈ lexemes text, t.position.offset + t.text.utf8ByteSize ≤ text.utf8ByteSize := by
  intro t ht
  obtain ⟨htokens, hkind⟩ := List.mem_filter.mp ht
  have htiles := tiles_tokenize text
  obtain ⟨body, p, hbody, hp, -⟩ := htiles.ends
  have hpairs := htiles.pairwise
  rw [hbody] at htokens hpairs
  have hend := (List.pairwise_append.mp hpairs).2.2 t ?_ (.atEnd p) (List.mem_singleton_self _)
  · have hle := hend.1
    rw [show (Token.atEnd p).position = p from rfl, hp.offset] at hle
    simpa [byteSize_toList] using hle
  · rcases List.mem_append.mp htokens with hmem | hmem
    · exact hmem
    · obtain rfl := List.mem_singleton.mp hmem
      simp [Token.atEnd] at hkind

/-! ## Nothing is lost -/

/-- The tokens of `text` are `tokens`, each at its place. -/
structure Covers (tokens : List Token) (text : String) : Prop where
  /-- The end of the input comes once, and last. -/
  ends : ∃ body p, tokens = body ++ [.atEnd p] ∧ p.offset = text.utf8ByteSize ∧
    ∀ t ∈ body, t.kind ≠ .endOfInput
  /-- A token's text is what the bytes from its offset on say. -/
  slice : ∀ t ∈ tokens, text.toByteArray.extract t.position.offset
    (t.position.offset + t.text.utf8ByteSize) = t.text.toByteArray
  /-- No token begins before the ones in front of it have ended. -/
  apart : tokens.Pairwise fun t u => t.position.offset + t.text.utf8ByteSize ≤ u.position.offset
  increasing : tokens.Pairwise fun t u => t.position.offset < u.position.offset
  /-- All else in the text is trivia. -/
  tiles : Tiles [] text.toList tokens
  /-- A token stands between characters, and its position counts those
  before it. -/
  placed : ∀ t ∈ tokens, ∃ before after, text.toList = before ++ t.text.toList ++ after ∧
    t.position.Marks before

theorem extract_toByteArray {text middle : String} {before after : List Char}
    (h : text.toList = before ++ middle.toList ++ after) :
    text.toByteArray.extract (byteSize before) (byteSize before + middle.utf8ByteSize) =
      middle.toByteArray := by
  have htext : text = String.ofList before ++ (middle ++ String.ofList after) := by
    rw [← String.toList_inj]
    simp [h]
  have hbefore : (String.ofList before).toByteArray.size = byteSize before := by
    rw [String.size_toByteArray, utf8ByteSize_ofList]
  rw [htext, String.toByteArray_append, String.toByteArray_append, ← hbefore]
  calc
    _ = (middle.toByteArray ++ (String.ofList after).toByteArray).extract 0 middle.utf8ByteSize :=
      ByteArray.extract_append_size_add (i := 0)
    _ = middle.toByteArray := ByteArray.extract_append_eq_left rfl

theorem tokenize_lossless (text : String) : Covers (tokenize text) text := by
  have htiles := tiles_tokenize text
  have hplaced : ∀ t ∈ tokenize text, ∃ before after,
      text.toList = before ++ t.text.toList ++ after ∧ t.position.Marks before := by
    intro t ht
    obtain ⟨before, after, htext, hmarks⟩ := htiles.placed t ht
    exact ⟨before, after, htext, hmarks⟩
  obtain ⟨body, p, hbody, hp, hkinds⟩ := htiles.ends
  refine ⟨⟨body, p, hbody, ?_, hkinds⟩, fun t ht => ?_, htiles.pairwise.imp And.left,
    htiles.pairwise.imp And.right, htiles, hplaced⟩
  · rw [hp.offset, List.nil_append, byteSize_toList]
  · obtain ⟨before, after, htext, hmarks⟩ := hplaced t ht
    rw [hmarks.offset]
    exact extract_toByteArray htext

end WorkflowScript
