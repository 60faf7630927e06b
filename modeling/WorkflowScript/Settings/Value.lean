import WorkflowScript.Text.LowerCase

/-!
# Setting values and their layers

Settings are read from several layers; a later layer wins over an earlier
one, except that two tables are merged key by key. A layer is a list of
assignments, each of a value to a path. Keys are kept in lower case.
-/

namespace WorkflowScript.Settings

inductive Value where
  /-- No value; it fills the gaps of an array. -/
  | nothing
  | text (s : String)
  | array (items : List Value)
  | table (entries : List (String × Value))

abbrev Entries := List (String × Value)

namespace Value

def get? (key : String) : Value → Option Value
  | table entries => entries.lookup key
  | _ => none

/-- The items of an array; nothing else has any. -/
def items : Value → List Value
  | array items => items
  | _ => []

/-- The entries with one key set, in its place if it was there. -/
def putEntry (key : String) (v : Value) : Entries → Entries
  | [] => [(key, v)]
  | (k, w) :: rest => if k = key then (k, v) :: rest else (k, w) :: putEntry key v rest

/-- The value with one key set. Anything but a table becomes one. -/
def put (base : Value) (key : String) (v : Value) : Value :=
  match base with
  | table entries => table (putEntry key v entries)
  | _ => table [(key, v)]

mutual

/-- The new value where the old one, if any, stood. A table is merged into
what is there, anything else takes its place. -/
def onto : (new : Value) → (old : Option Value) → Value
  | table entries, old => entriesOnto entries (old.getD (table []))
  | nothing, _ => nothing
  | text s, _ => text s
  | array items, _ => array items

def entriesOnto : (new : Entries) → (base : Value) → Value
  | [], base => base
  | (name, v) :: rest, base =>
    let key := Text.lowered name
    entriesOnto rest (base.put key (v.onto (base.get? key)))

end

/-- The value with a new one set under a key, merged into what is there. -/
def merge (base : Value) (key : String) (new : Value) : Value :=
  base.put key (new.onto (base.get? key))

/-- The place in a list of a given length that an index means. Negative
ones count from the end. -/
def place? (index : Int) (length : Nat) : Option Nat :=
  if 0 ≤ index then some index.toNat
  else if index.natAbs ≤ length then some (length - index.natAbs)
  else none

/-- The items with the one at a place changed. Gaps are filled up. -/
def alterItem (f : Value → Value) (items : List Value) (place : Nat) : List Value :=
  let filled := items ++ List.replicate (place + 1 - items.length) nothing
  filled.modify place f

end Value

/-! ## Paths -/

/-- A step on the way to a value. -/
inductive Step where
  | key (name : String)
  | index (i : Int)
deriving Repr, DecidableEq

abbrev Path := List Step

/-- The value with a new one set at a path. A key makes a table of whatever
it meets and an index an array, so a path always leads to its end. Only an
index that counts from the end may point before the start of its array;
then nothing is set. -/
def Value.assign (new : Value) : Path → (old : Value) → Value
  | [], old => old
  | [.key name], old => old.merge name new
  | .key name :: path, old =>
    old.put name (assign new path ((old.get? name).getD .nothing))
  | .index i :: path, old =>
    match place? i old.items.length with
    | some place =>
      let set := if path = [] then fun _ => new else assign new path
      .array (alterItem set old.items place)
    | none => old

/-- Characters that a key on a path may hold. -/
def isKeyChar (c : Char) : Bool :=
  c.isAlphanum || c = ' ' || c = '_' || c = '-'

/-- The key that a text begins with, and the text behind it. -/
def pathKey? (cs : List Char) : Option (Step × List Char) :=
  let name := cs.takeWhile isKeyChar
  if name.isEmpty then none
  else some (.key (String.ofList name), cs.dropWhile isKeyChar)

/-- The index that a text begins with, behind its opening bracket, and the
text behind the closing one. -/
def pathIndex? (cs : List Char) : Option (Step × List Char) :=
  let isSpace := fun c => c = ' ' || c = '\t'
  let (negative, cs) :=
    match cs.dropWhile isSpace with
    | '-' :: cs => (true, cs)
    | cs => (false, cs)
  let digits := cs.takeWhile Char.isDigit
  let n : Nat := digits.foldl (fun n c => 10 * n + (c.toNat - '0'.toNat)) 0
  let i : Int := if negative then -n else n
  if digits.isEmpty || !(-0x8000000000000000 ≤ i && i < 0x8000000000000000) then none
  else
    match (cs.dropWhile Char.isDigit).dropWhile isSpace with
    | ']' :: rest => some (.index i, rest)
    | _ => none

/-- The steps behind the first one. Each takes a character. -/
def moreSteps? : (bound : Nat) → List Char → Option Path
  | _, [] => some []
  | 0, _ => none
  | bound + 1, c :: cs => do
    let (step, rest) ←
      match c with
      | '.' => pathKey? cs
      | '[' => pathIndex? cs
      | _ => none
    let path ← moreSteps? bound rest
    some (step :: path)

/-- The path that a text with dots and brackets stands for. A text that is
no path is one key, as it stands. -/
def readPath (text : String) : Path :=
  let read : Option Path := do
    let (first, rest) ← pathKey? text.toList
    let path ← moreSteps? rest.length rest
    some (first :: path)
  read.getD [.key text]

/-! ## Layers -/

/-- A source of settings: values by the paths they are assigned to. -/
abbrev Layer := List (Path × Value)

/-- The value with all assignments of a layer made. -/
def applyLayer (layer : Layer) (v : Value) : Value :=
  layer.foldl (fun acc (path, new) => new.assign path acc) v

/-- The value that layers make, the last one winning. -/
def mergeLayers (layers : List Layer) : Value :=
  layers.foldl (fun acc layer => applyLayer layer acc) (.table [])

end WorkflowScript.Settings
