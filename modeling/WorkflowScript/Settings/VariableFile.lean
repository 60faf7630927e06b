import WorkflowScript.Settings.Environment
import WorkflowScript.Text.Alphanumeric
import WorkflowScript.Text.Blank
import WorkflowScript.Text.Utf8

/-!
# Files of variables

A file can add variables to the environment. Its entries are of the form
`NAME=value`, perhaps behind the word `export`; blank lines and those that
start with `#` say nothing. A variable that is set already keeps its value.

The file is read in two steps. Lines are put together to entries: an entry
goes on behind the end of a line while a quote is open there. Then each
entry is read. Whatever cannot be read ends the file, and the entries
before it count.
-/

namespace WorkflowScript.Settings

/-! ## Lines -/

/-- The byte that ends a line. -/
def lineFeed : UInt8 := 10

/-- The lines of a file, each with the byte that ends it. -/
def splitLines : List UInt8 → List (List UInt8)
  | [] => []
  | b :: bs =>
    if b = lineFeed then [b] :: splitLines bs
    else
      match splitLines bs with
      | [] => [[b]]
      | line :: lines => (b :: line) :: lines

/-- The bytes without the byte-order mark they may start with. -/
def dropByteOrderMark : List UInt8 → List UInt8
  | 0xEF :: 0xBB :: 0xBF :: bytes => bytes
  | bytes => bytes

/-- The lines of a file as text; `none` stands for a line that is none. -/
def textLines (bytes : List UInt8) : List (Option (List Char)) :=
  (splitLines (dropByteOrderMark bytes)).map fun line =>
    (Text.Utf8.decode? line).map String.toList

/-! ## Entries -/

/-- Where a text stands, as far as its end is concerned: outside quotes,
behind a blank there, or inside one of the two kinds of quotes; and whether
a backslash has been read just before. -/
inductive LineState where
  | plain | blank | escape
  | single | singleEscape
  | double | doubleEscape
deriving Repr, DecidableEq

/-- Whether a blank outside quotes may have a comment behind it. -/
def opensComment (c : Char) : Bool := Text.isBlank c && c ≠ '\n' && c ≠ '\r'

def LineState.next : LineState → Char → LineState
  | .single, c => if c = '\\' then .singleEscape else if c = '\'' then .plain else .single
  | .double, c => if c = '\\' then .doubleEscape else if c = '"' then .plain else .double
  | .singleEscape, _ => .single
  | .doubleEscape, _ => .double
  | .escape, _ => .plain
  | state, c =>
    if c = '\\' then .escape
    else if c = '"' then .double
    else if c = '\'' then .single
    else if state = .plain ∧ opensComment c then .blank
    else .plain

/-- A line up to the comment it may end with, and the state behind it;
behind a comment there is none. -/
def scanLine : LineState → List Char → List Char × Option LineState
  | state, [] => ([], some state)
  | state, c :: cs =>
    if state = .blank ∧ c = '#' then ([], none)
    else
      let (taken, stop) := scanLine (state.next c) cs
      (c :: taken, stop)

def dropBlanks (cs : List Char) : List Char := cs.dropWhile Text.isBlank

def dropBlanksRight (cs : List Char) : List Char := (dropBlanks cs.reverse).reverse

/-- The entries of a file, up to a line that is no text and without what
is still open at the end. -/
def entries (pending : List Char) (state : LineState) :
    List (Option (List Char)) → List (List Char)
  | [] | none :: _ => []
  | some line :: lines =>
    if (dropBlanks (pending ++ line)).head? = some '#' then entries [] .plain lines
    else
      match scanLine state line with
      | (taken, none) | (taken, some .plain) => (pending ++ taken) :: entries [] .plain lines
      | (taken, some state) => entries (pending ++ taken) state lines

/-! ## Values -/

/-- Which quotes a character stands in. -/
inductive Quoting where
  | bare | single | double
deriving Repr, DecidableEq

/-- Where the reader of a value is. -/
inductive ValueState where
  | text (q : Quoting)
  /-- Behind a backslash. -/
  | escape (q : Quoting)
  /-- In the name behind a `$`, read backwards. -/
  | name (q : Quoting) (reversed : List Char)
  /-- In the name behind a `$` and an opening brace, read backwards. -/
  | braced (q : Quoting) (reversed : List Char)
  /-- Behind the space that ends the value. -/
  | done

/-- What a character behind a backslash stands for. -/
def unescape? : Char → Option Char
  | 'n' => some '\n'
  | c => if ['\\', '\'', '"', '$', ' '].contains c then some c else none

/-- The value of the variable whose name has been read backwards. -/
def referenced (env : Environment) (reversed : List Char) : List Char :=
  ((env.lookup (String.ofList reversed.reverse)).getD "").toList

/-- The value that a text writes. Single quotes take a text as it is;
elsewhere a backslash escapes a character and `$NAME` stands for a
variable. The character that ends such a name is taken as it is. Behind a
space outside quotes only a comment may follow. -/
def valueFrom? (env : Environment) : ValueState → List Char → Option (List Char)
  | .text .bare, [] | .escape .bare, [] | .done, [] => some []
  | .name .bare name, [] => some (referenced env name)
  | _, [] => none
  | .done, c :: cs =>
    if c = '#' then some []
    else if c = ' ' ∨ c = '\t' then valueFrom? env .done cs
    else none
  | .escape q, c :: cs => do
    let c ← unescape? c
    let rest ← valueFrom? env (.text q) cs
    some (c :: rest)
  | .name q name, c :: cs =>
    if Text.isAlphanumeric c then valueFrom? env (.name q (c :: name)) cs
    else if c = '\x7b' ∧ name = [] then valueFrom? env (.braced q []) cs
    else do
      let rest ←
        if c = '$' then valueFrom? env (.name q []) cs
        else (valueFrom? env (.text q) cs).map (c :: ·)
      some (referenced env name ++ rest)
  | .braced q name, c :: cs =>
    if c = '\x7d' then (valueFrom? env (.text q) cs).map (referenced env name ++ ·)
    else valueFrom? env (.braced q (c :: name)) cs
  | .text .single, c :: cs =>
    if c = '\'' then valueFrom? env (.text .bare) cs
    else (valueFrom? env (.text .single) cs).map (c :: ·)
  | .text q, c :: cs =>
    if c = '$' then valueFrom? env (.name q []) cs
    else if c = '\\' then valueFrom? env (.escape q) cs
    else if c = '"' then valueFrom? env (.text (if q = .double then .bare else .double)) cs
    else if q = .bare ∧ c = '\'' then valueFrom? env (.text .single) cs
    else if q = .bare ∧ (c = ' ' ∨ c = '\t') then valueFrom? env .done cs
    else (valueFrom? env (.text q) cs).map (c :: ·)

/-! ## Names -/

/-- Characters that the name of a variable may start with. -/
def isNameLead (c : Char) : Bool := c.isAlpha || c = '_'

/-- Characters that the name of a variable may go on with. -/
def isNameChar (c : Char) : Bool := c.isAlphanum || c = '_' || c = '.'

/-- A name at the start of an entry, and the text behind it and its
blanks. -/
def variableName? : List Char → Option (List Char × List Char)
  | [] => none
  | c :: cs =>
    if isNameLead c then
      some (c :: cs.takeWhile isNameChar, dropBlanks (cs.dropWhile isNameChar))
    else none

/-- The text behind an equals sign and blanks. -/
def behindEquals? : List Char → Option (List Char)
  | '=' :: cs => some (dropBlanks cs)
  | _ => none

/-- The name that an entry sets, and the text of its value. The word
`export` is a name itself if an equals sign stands behind it. -/
def variableTarget? (cs : List Char) : Option (List Char × List Char) := do
  let (name, rest) ← variableName? cs
  match behindEquals? rest with
  | some value => some (name, value)
  | none =>
    if name = "export".toList then do
      let (name, rest) ← variableName? rest
      let value ← behindEquals? rest
      some (name, value)
    else none

/-! ## The file -/

/-- The environment with what an entry sets, if it can be read. -/
def addEntry? (env : Environment) (entry : List Char) : Option Environment :=
  let cs := dropBlanksRight (dropBlanks entry)
  if cs = [] ∨ cs.head? = some '#' then some env
  else do
    let (name, rest) ← variableTarget? cs
    let value ←
      if rest.head? = some '#' then some []
      else valueFrom? env (.text .bare) rest
    let name := String.ofList name
    if (env.lookup name).isSome then some env
    else some (env ++ [(name, String.ofList value)])

/-- The environment with what entries set, up to the first one that cannot
be read. -/
def addEntries (env : Environment) : List (List Char) → Environment
  | [] => env
  | entry :: rest =>
    match addEntry? env entry with
    | some env => addEntries env rest
    | none => env

/-- The environment with the variables of a file added. -/
def addVariableFile (env : Environment) (bytes : List UInt8) : Environment :=
  addEntries env (entries [] .plain (textLines bytes))

end WorkflowScript.Settings
