/-!
# UTF-8

Reading characters from bytes. `splitSequence` takes one step: the bytes
of one character, or, where there is none, the longest run of bytes that
might have begun one. A strict reader refuses such a run, a lenient one
puts the replacement character in its place.
-/

namespace WorkflowScript.Text.Utf8

/-- The bytes that may follow a lead byte, position by position, as ranges;
`none` if no character starts with this byte. -/
def continuations (lead : Nat) : Option (List (Nat × Nat)) :=
  let any := (0x80, 0xBF)
  if lead < 0x80 then some []
  else if lead < 0xC2 then none
  else if lead < 0xE0 then some [any]
  else if lead = 0xE0 then some [(0xA0, 0xBF), any]
  else if lead = 0xED then some [(0x80, 0x9F), any]
  else if lead < 0xF0 then some [any, any]
  else if lead = 0xF0 then some [(0x90, 0xBF), any, any]
  else if lead < 0xF4 then some [any, any, any]
  else if lead = 0xF4 then some [(0x80, 0x8F), any, any]
  else none

/-- The bits that a lead byte gives to its character. -/
def leadBits (lead : Nat) : Nat :=
  if lead < 0x80 then lead
  else if lead < 0xE0 then lead % 0x20
  else if lead < 0xF0 then lead % 0x10
  else lead % 0x08

/-- Adds the continuation bytes to the bits read so far. The answer is the
code point, if the sequence is complete, and the bytes behind it. -/
def joinBits (bits : Nat) : List (Nat × Nat) → List UInt8 → Option Nat × List UInt8
  | [], rest => (some bits, rest)
  | _ :: _, [] => (none, [])
  | (lo, hi) :: ranges, b :: rest =>
    if lo ≤ b.toNat ∧ b.toNat ≤ hi then joinBits (bits * 0x40 + b.toNat % 0x40) ranges rest
    else (none, b :: rest)

/-- The character that a lead byte and the bytes behind it begin with, if
they do, and the bytes behind the sequence. -/
def splitSequence (lead : UInt8) (rest : List UInt8) : Option Char × List UInt8 :=
  match continuations lead.toNat with
  | none => (none, rest)
  | some ranges =>
    let (code?, rest') := joinBits (leadBits lead.toNat) ranges rest
    (code?.map Char.ofNat, rest')

/-- The characters of a byte sequence; `none` stands for each run of bytes
that is no character. Every step takes a byte, so the number of bytes
bounds the steps. -/
def sequences : (steps : Nat) → List UInt8 → List (Option Char)
  | 0, _ => []
  | _, [] => []
  | steps + 1, b :: rest =>
    let (c?, rest') := splitSequence b rest
    c? :: sequences steps rest'

/-- The text that the bytes spell, if they spell one. -/
def decode? (bytes : List UInt8) : Option String :=
  ((sequences bytes.length bytes).mapM id).map String.ofList

/-- The text that the bytes spell, with the replacement character for
whatever is no character. -/
def decodeLenient (bytes : List UInt8) : String :=
  String.ofList ((sequences bytes.length bytes).map fun c? => c?.getD '\uFFFD')

end WorkflowScript.Text.Utf8
