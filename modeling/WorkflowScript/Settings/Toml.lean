import WorkflowScript.Settings.Value

/-!
# Settings files

The part of TOML that settings are written in: headers of tables and of
arrays of tables, bare, quoted and dotted keys, all forms of strings,
integers, booleans, arrays, inline tables, and comments.

While a text is read, `Item` keeps track of how a table came about, because
TOML lets a table be defined only once: by a header, by the header of a
table inside it (which leaves it open to a header of its own), or by dotted
keys (which may go on adding to it).
-/

namespace WorkflowScript.Settings.Toml

/-! ## Documents -/

/-- How a table came about. -/
inductive Origin where
  | header | inner | dotted
deriving Repr, DecidableEq

inductive Item where
  | value (v : Value)
  | table (origin : Origin) (entries : List (String × Item))
  /-- The tables of one array that have had their headers, the last one
  first. -/
  | tables (last : List (String × Item)) (before : List (List (String × Item)))

abbrev Entries := List (String × Item)

/-- The entries with the one of a key changed or added. -/
def alter (key : String) (f : Option Item → Option Item) : Entries → Option Entries
  | [] => (f none).map fun item => [(key, item)]
  | (k, item) :: rest =>
    if k = key then (f (some item)).map fun item' => (k, item') :: rest
    else (alter key f rest).map ((k, item) :: ·)

/-- Goes down a path of tables, making those that are missing, and changes
the entries at its end. Dotted keys must not go through a table that has a
header, unless it is in an array. -/
def descend (made : Origin) (f : Origin → Entries → Option Entries) :
    List String → Origin → Entries → Option Entries
  | [], origin, entries => f origin entries
  | key :: path, _, entries =>
    alter key
      (fun
        | none => (descend made f path made []).map (.table made)
        | some (.table origin inner) =>
          if made = .dotted ∧ origin = .header then none
          else (descend made f path origin inner).map (.table origin)
        | some (.tables last before) =>
          (descend made f path .header last).map fun last => .tables last before
        | some (.value _) => none)
      entries

/-- Opens the table of a header: a new one, or one that only stood for the
tables inside it. -/
def openTable (path : List String) (key : String) (root : Entries) : Option Entries :=
  descend .inner
    (fun _ entries =>
      alter key
        (fun
          | none => some (.table .header [])
          | some (.table .inner inner) => some (.table .header inner)
          | some _ => none)
        entries)
    path .header root

/-- Opens one more table of the array that a header names. -/
def openNextTable (path : List String) (key : String) (root : Entries) : Option Entries :=
  descend .inner
    (fun _ entries =>
      alter key
        (fun
          | none => some (.tables [] [])
          | some (.tables last before) => some (.tables [] (last :: before))
          | some _ => none)
        entries)
    path .header root

/-- Sets a key, perhaps a dotted one, in a table. -/
def setIn (path : List String) (key : String) (v : Value) :
    (origin : Origin) → Entries → Option Entries :=
  descend .dotted
    (fun origin entries =>
      if path ≠ [] ∧ origin ≠ .dotted then none
      else
        alter key
          (fun
            | none => some (.value v)
            | some _ => none)
          entries)
    path

/-- Sets a key, perhaps a dotted one, in the table of a header. -/
def setKey (header path : List String) (key : String) (v : Value) (root : Entries) :
    Option Entries :=
  descend .inner (setIn path key v) header .header root

mutual

def Item.toValue : Item → Value
  | .value v => v
  | .table _ entries => .table (valuesOf entries)
  | .tables last before => .array ((tablesOf before).reverse ++ [.table (valuesOf last)])

def valuesOf : List (String × Item) → List (String × Value)
  | [] => []
  | (key, item) :: rest => (key, item.toValue) :: valuesOf rest

def tablesOf : List (List (String × Item)) → List Value
  | [] => []
  | entries :: rest => .table (valuesOf entries) :: tablesOf rest

end

/-! ## Characters -/

def isSpace (c : Char) : Bool := c = ' ' || c = '\t'

/-- Control characters may stand neither in strings nor in comments. -/
def isForbidden (c : Char) : Bool := (c.toNat < 0x20 && c ≠ '\t') || c.toNat = 0x7F

def dropSpaces (cs : List Char) : List Char := cs.dropWhile isSpace

/-- The text behind a line feed, with or without a carriage return. -/
def newline? : List Char → Option (List Char)
  | '\n' :: rest => some rest
  | '\r' :: '\n' :: rest => some rest
  | _ => none

/-- The text behind a comment, if it starts with one. -/
def dropComment : List Char → List Char
  | '#' :: cs => cs.dropWhile fun c => !isForbidden c
  | cs => cs

/-- The text behind spaces, a comment and the end of the line, which may be
the end of the text. -/
def endOfLine? (cs : List Char) : Option (List Char) :=
  match dropComment (dropSpaces cs) with
  | [] => some []
  | rest => newline? rest

/-! ## Keys and scalars -/

/-- The text of a string in single quotes, behind the opening one. -/
def literal? : List Char → Option (List Char × List Char)
  | [] => none
  | c :: cs =>
    if c = '\'' then some ([], cs)
    else if isForbidden c then none
    else (literal? cs).map fun (text, rest) => (c :: text, rest)

def hexValue? (digits : List Char) : Option Nat :=
  digits.foldl
    (fun acc c => do
      let n ← acc
      if '0' ≤ c ∧ c ≤ '9' then some (16 * n + (c.toNat - '0'.toNat))
      else if 'a' ≤ c ∧ c ≤ 'f' then some (16 * n + (c.toNat - 'a'.toNat + 10))
      else if 'A' ≤ c ∧ c ≤ 'F' then some (16 * n + (c.toNat - 'A'.toNat + 10))
      else none)
    (some 0)

/-- The character that hexadecimal digits name. -/
def hexChar? (digits : List Char) : Option Char := do
  let n ← hexValue? digits
  if n.isValidChar then some (Char.ofNat n) else none

/-- The character that a letter names behind a backslash. -/
def escape? : Char → Option Char
  | 'b' => some '\x08'
  | 't' => some '\t'
  | 'n' => some '\n'
  | 'f' => some '\x0c'
  | 'r' => some '\r'
  | '"' => some '"'
  | '\\' => some '\\'
  | _ => none

/-- The character that an escape writes, behind its backslash, and the text
behind it. -/
def escaped? : List Char → Option (Char × List Char)
  | 'u' :: a :: b :: c :: d :: cs => (hexChar? [a, b, c, d]).map (·, cs)
  | 'U' :: a :: b :: c :: d :: e :: f :: g :: h :: cs =>
    (hexChar? [a, b, c, d, e, f, g, h]).map (·, cs)
  | c :: cs => (escape? c).map (·, cs)
  | [] => none

/-- The text of a string in double quotes, behind the opening one. Every
step takes a character. -/
def basicWithin? : (steps : Nat) → List Char → Option (List Char × List Char)
  | 0, _ | _, [] => none
  | steps + 1, c :: cs =>
    if c = '"' then some ([], cs)
    else do
      let (char, rest) ←
        if c = '\\' then escaped? cs else if isForbidden c then none else some (c, cs)
      let (text, rest) ← basicWithin? steps rest
      some (char :: text, rest)

def basic? (cs : List Char) : Option (List Char × List Char) := basicWithin? cs.length cs

/-- The text behind spaces and line ends. -/
def dropBlankLines : (steps : Nat) → List Char → List Char
  | 0, cs => cs
  | steps + 1, cs =>
    let rest := dropSpaces cs
    match newline? rest with
    | some rest' => dropBlankLines steps rest'
    | none => rest

/-- The quotes that belong to a text which three quotes of a kind end, and
the text behind those; `none` if they do not stand at its start. Up to two
more quotes in front of the three belong to the text. -/
def closingQuotes? (quote : Char) (cs : List Char) : Option (List Char × List Char) :=
  let count := (cs.takeWhile (· = quote)).length
  if count < 3 then none
  else
    let inside := min (count - 3) 2
    some (List.replicate inside quote, cs.drop (inside + 3))

/-- The text of a string in three single quotes, behind the opening ones.
Every step takes a character. -/
def literalLines? : (steps : Nat) → List Char → Option (List Char × List Char)
  | 0, _ | _, [] => none
  | steps + 1, c :: cs =>
    match closingQuotes? '\'' (c :: cs) with
    | some closing => some closing
    | none => do
      let (char, rest) ←
        match newline? (c :: cs) with
        | some rest => some ('\n', rest)
        | none => if isForbidden c then none else some (c, cs)
      let (text, rest) ← literalLines? steps rest
      some (char :: text, rest)

/-- The text of a string in three double quotes, behind the opening ones. A
backslash at the end of a line takes away the line end and what is blank
behind it. Every step takes a character. -/
def basicLines? : (steps : Nat) → List Char → Option (List Char × List Char)
  | 0, _ | _, [] => none
  | steps + 1, c :: cs =>
    match closingQuotes? '"' (c :: cs) with
    | some closing => some closing
    | none =>
      match c, newline? (dropSpaces cs) with
      | '\\', some rest => basicLines? steps (dropBlankLines rest.length rest)
      | _, _ => do
        let (char, rest) ←
          match newline? (c :: cs) with
          | some rest => some ('\n', rest)
          | none => if c = '\\' then escaped? cs else if isForbidden c then none else some (c, cs)
        let (text, rest) ← basicLines? steps rest
        some (char :: text, rest)

/-- The text behind the line end that a string of several lines may start
with. -/
def dropFirstNewline (cs : List Char) : List Char := (newline? cs).getD cs

/-- A string of any form. -/
def string? : List Char → Option (List Char × List Char)
  | '"' :: '"' :: '"' :: cs => basicLines? (cs.length + 1) (dropFirstNewline cs)
  | '\'' :: '\'' :: '\'' :: cs => literalLines? (cs.length + 1) (dropFirstNewline cs)
  | '"' :: cs => basic? cs
  | '\'' :: cs => literal? cs
  | _ => none

def isBareKeyChar (c : Char) : Bool := c.isAlphanum || c = '_' || c = '-'

/-- A key without its dots. -/
def simpleKey? : List Char → Option (String × List Char)
  | '"' :: cs => (basic? cs).map fun (text, rest) => (String.ofList text, rest)
  | '\'' :: cs => (literal? cs).map fun (text, rest) => (String.ofList text, rest)
  | cs =>
    let key := cs.takeWhile isBareKeyChar
    if key.isEmpty then none else some (String.ofList key, cs.dropWhile isBareKeyChar)

/-- The keys behind the first one, each behind a dot. -/
def moreKeys? : (steps : Nat) → List Char → Option (List String × List Char)
  | 0, _ => none
  | steps + 1, cs =>
    match dropSpaces cs with
    | '.' :: rest => do
      let (key, rest) ← simpleKey? (dropSpaces rest)
      let (keys, rest) ← moreKeys? steps rest
      some (key :: keys, rest)
    | rest => some ([], rest)

/-- A dotted key: the path to it and its last part. -/
def dottedKey? (cs : List Char) : Option ((List String × String) × List Char) := do
  let (first, rest) ← simpleKey? (dropSpaces cs)
  let (more, rest) ← moreKeys? (rest.length + 1) rest
  let keys := first :: more
  some ((keys.dropLast, keys.getLastD first), rest)

/-- Digits with single underscores between them. -/
def digitGroups? (isDigit : Char → Bool) (cs : List Char) : Option (List Char) :=
  let digits := cs.filter (· ≠ '_')
  if digits.isEmpty || !digits.all isDigit || cs.head? = some '_' || cs.getLast? = some '_'
      || (cs.zip cs.tail).any (· = ('_', '_')) then none
  else some digits

/-- The number that digits of a base write. -/
def numberIn (base : Nat) (digits : List Char) : Nat :=
  digits.foldl (fun n c => base * n + (hexValue? [c]).getD 0) 0

def isDigitBelow (base : Nat) (c : Char) : Bool :=
  match hexValue? [c] with
  | some n => n < base
  | none => false

/-- A decimal number without a sign. It has no zero in front. -/
def decimal? (cs : List Char) : Option Nat := do
  let digits ← digitGroups? (isDigitBelow 10) cs
  if cs.head? = some '0' ∧ cs.length ≠ 1 then none else some (numberIn 10 digits)

/-- An integer that fits into 64 bits with a sign. -/
def integer? (cs : List Char) : Option Int := do
  let n : Int ← match cs with
    | '+' :: digits => (decimal? digits).map Int.ofNat
    | '-' :: digits => (decimal? digits).map fun n => -Int.ofNat n
    | '0' :: 'x' :: digits => (digitGroups? (isDigitBelow 16) digits).map (numberIn 16 ·)
    | '0' :: 'o' :: digits => (digitGroups? (isDigitBelow 8) digits).map (numberIn 8 ·)
    | '0' :: 'b' :: digits => (digitGroups? (isDigitBelow 2) digits).map (numberIn 2 ·)
    | digits => (decimal? digits).map Int.ofNat
  if -0x8000000000000000 ≤ n ∧ n < 0x8000000000000000 then some n else none

/-- A value that is one word. Numbers and booleans count as their text. -/
def word? (word : List Char) : Option Value :=
  if word = "true".toList then some (.text "true")
  else if word = "false".toList then some (.text "false")
  else (integer? word).map fun n => .text (toString n)

def isWordChar (c : Char) : Bool := c.isAlphanum || c = '_' || c = '+' || c = '-' || c = '.'

/-! ## Arrays and inline tables -/

/-- The text behind spaces, comments and line ends. -/
def dropGap : (steps : Nat) → List Char → List Char
  | 0, cs => cs
  | steps + 1, cs =>
    let rest := dropComment (dropSpaces cs)
    match newline? rest with
    | some rest' => dropGap steps rest'
    | none => rest

section Nested

variable (value? : List Char → Option (Value × List Char))

/-- The items of an array behind its opening bracket. A comma may stand
behind the last one. -/
def items? : (steps : Nat) → List Char → Option (List Value × List Char)
  | 0, _ => none
  | steps + 1, cs =>
    match dropGap cs.length cs with
    | ']' :: rest => some ([], rest)
    | cs => do
      let (item, rest) ← value? cs
      match dropGap rest.length rest with
      | ']' :: rest => some ([item], rest)
      | ',' :: rest => do
        let (items, rest) ← items? steps rest
        some (item :: items, rest)
      | _ => none

/-- A key and its value, and the text behind them and spaces. -/
def keyValue? (cs : List Char) : Option ((List String × String) × Value × List Char) := do
  let (key, rest) ← dottedKey? cs
  match rest with
  | '=' :: rest =>
    let (v, rest) ← value? (dropSpaces rest)
    some (key, v, dropSpaces rest)
  | _ => none

/-- The entries of an inline table up to its closing brace, added to those
before them. -/
def inlineEntries? : (steps : Nat) → Entries → List Char → Option (Entries × List Char)
  | 0, _, _ => none
  | steps + 1, entries, cs => do
    let ((path, key), v, rest) ← keyValue? value? cs
    let entries ← setIn path key v .header entries
    match rest with
    | '\x7d' :: rest => some (entries, rest)
    | ',' :: rest => inlineEntries? steps entries rest
    | _ => none

/-- An inline table behind its opening brace. -/
def inlineTable? (cs : List Char) : Option (Value × List Char) :=
  match dropSpaces cs with
  | '\x7d' :: rest => some (.table [], rest)
  | cs => (inlineEntries? value? cs.length [] cs).map fun (entries, rest) =>
      (.table (valuesOf entries), rest)

end Nested

/-- A value; `depth` bounds the arrays and tables inside one another. -/
def value? : (depth : Nat) → List Char → Option (Value × List Char)
  | 0, _ => none
  | depth + 1, cs =>
    match cs with
    | '[' :: rest =>
      (items? (value? depth) (rest.length + 1) rest).map fun (items, rest) => (.array items, rest)
    | '\x7b' :: rest => inlineTable? (value? depth) rest
    | c :: _ =>
      if c = '"' ∨ c = '\'' then
        (string? cs).map fun (text, rest) => (.text (String.ofList text), rest)
      else (word? (cs.takeWhile isWordChar)).map fun v => (v, cs.dropWhile isWordChar)
    | [] => none

/-! ## Lines -/

/-- The path that a header names, behind its opening brackets, and the text
behind the closing ones and the end of the line. -/
def header? (closing : List Char) (cs : List Char) :
    Option ((List String × String) × List Char) := do
  let (name, rest) ← dottedKey? cs
  if closing.isPrefixOf rest then
    let rest ← endOfLine? (rest.drop closing.length)
    some (name, rest)
  else none

/-- Reads line after line into the entries; `header` is the path of the
table that keys go to. Every line takes a character. -/
def lines? : (steps : Nat) → (header : List String) → Entries → List Char → Option Entries
  | 0, _, _, _ => none
  | steps + 1, header, root, cs =>
    match dropSpaces cs with
    | [] => some root
    | '[' :: '[' :: rest => do
      let ((path, key), rest) ← header? [']', ']'] rest
      let root ← openNextTable path key root
      lines? steps (path ++ [key]) root rest
    | '[' :: rest => do
      let ((path, key), rest) ← header? [']'] rest
      let root ← openTable path key root
      lines? steps (path ++ [key]) root rest
    | c :: rest =>
      if c = '#' ∨ c = '\n' ∨ c = '\r' then do
        let rest ← endOfLine? (c :: rest)
        lines? steps header root rest
      else do
        let ((path, key), v, rest) ← keyValue? (value? (rest.length + 1)) (c :: rest)
        let rest ← endOfLine? rest
        let root ← setKey header path key v root
        lines? steps header root rest

/-- A text without the byte-order mark it may start with. -/
def dropMark : List Char → List Char
  | '\uFEFF' :: cs => cs
  | cs => cs

/-- The entries that a text holds, if it is well formed. -/
def parse? (text : String) : Option Entries :=
  let cs := dropMark text.toList
  lines? (cs.length + 1) [] [] cs

/-- The layer that a text makes. A key at the top is read as a path. -/
def layer? (text : String) : Option Layer :=
  (parse? text).map fun entries =>
    (valuesOf entries).map fun (key, v) => (readPath (Text.lowered key), v)

end WorkflowScript.Settings.Toml
