/-!
# JSON values

The value type behind the written form of syntax trees, with the readers
a decoder is put together from. The fields of an object keep their order.
A number is kept as a natural number where it is one and as its text
otherwise, since the trees hold no other numbers.
-/

namespace WorkflowScript

inductive Json where
  | null
  | bool (b : Bool)
  | natural (n : Nat)
  /-- A number that is no natural number. -/
  | numeral (text : String)
  | string (s : String)
  | array (items : List Json)
  | object (fields : List (String × Json))

namespace Json

instance : Inhabited Json := ⟨null⟩

/-! ## Size -/

mutual

/-- How deep arrays and objects are nested. -/
def depth : Json → Nat
  | .array items => depthItems items + 1
  | .object fields => depthFields fields + 1
  | _ => 0

def depthItems : List Json → Nat
  | [] => 0
  | j :: js => max j.depth (depthItems js)

def depthFields : List (String × Json) → Nat
  | [] => 0
  | (_, j) :: rest => max j.depth (depthFields rest)

end

/-! ## Readers -/

/-- The value of a field; the first one counts. -/
def get? (name : String) : Json → Option Json
  | .object fields => fields.lookup name
  | _ => none

def asString : Json → Option String
  | .string s => some s
  | _ => none

def asBool : Json → Option Bool
  | .bool b => some b
  | _ => none

/-- The numbers that fit into 64 bits are below this one. -/
def wordLimit : Nat := 0x10000000000000000

/-- A number that fits into 64 bits. -/
def asWord : Json → Option Nat
  | .natural n => if n < wordLimit then some n else none
  | _ => none

variable {α β : Type}

/-- An array whose items are all read by `item`. -/
def asList (item : Json → Option α) : Json → Option (List α)
  | .array items => items.mapM item
  | _ => none

/-- An array of exactly two items. -/
def asPair (left : Json → Option α) (right : Json → Option β) : Json → Option (α × β)
  | .array [x, y] => do
    let a ← left x
    let b ← right y
    some (a, b)
  | _ => none

/-- A field that must be there. -/
def field (name : String) (read : Json → Option α) (j : Json) : Option α :=
  (j.get? name).bind read

/-- A field that may be missing or null. -/
def field? (name : String) (read : Json → Option α) (j : Json) : Option (Option α) :=
  match j.get? name with
  | none | some .null => some none
  | some value => (read value).map some

/-- The name of a constant: a string, or the one field of an object with
nothing in it. -/
def constantName? : Json → Option String
  | .string s => some s
  | .object [(name, .null)] => some name
  | _ => none

/-- The constant among `all` that is named. -/
def asNamed (all : List α) (name : α → String) (j : Json) : Option α := do
  let s ← j.constantName?
  all.find? fun a => name a == s

/-! ## Writers -/

def ofOption (write : α → Json) : Option α → Json
  | none => .null
  | some a => write a

end Json

end WorkflowScript
