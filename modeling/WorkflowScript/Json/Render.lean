import WorkflowScript.Json.Basic
import WorkflowScript.Text.Quoted

/-!
# Writing JSON

Two written forms of a value: `compact`, without any space, and `pretty`,
with one item or field on a line and two spaces for each level. Both
escape in a string only what must be escaped.
-/

namespace WorkflowScript.Json

/-- Four hexadecimal digits. -/
def hex4 (n : Nat) : String :=
  let digits := Text.hexDigits n
  String.ofList (List.replicate (4 - digits.length) '0') ++ digits

/-- The written form of one character in a string. -/
def escapeChar (c : Char) : String :=
  match c with
  | '"' => "\\\""
  | '\\' => "\\\\"
  | '\x08' => "\\b"
  | '\x0c' => "\\f"
  | '\n' => "\\n"
  | '\r' => "\\r"
  | '\t' => "\\t"
  | c => if c.toNat < 0x20 then "\\u" ++ hex4 c.toNat else String.singleton c

def quoted (s : String) : String :=
  "\"" ++ String.join (s.toList.map escapeChar) ++ "\""

/-! ## Compact -/

mutual

/-- The value without spaces. -/
def compact : Json → String
  | .null => "null"
  | .bool true => "true"
  | .bool false => "false"
  | .natural n => toString n
  | .numeral text => text
  | .string s => quoted s
  | .array items => "[" ++ compactItems items ++ "]"
  | .object fields => "\x7b" ++ compactFields fields ++ "\x7d"

def compactItems : List Json → String
  | [] => ""
  | [j] => j.compact
  | j :: js => j.compact ++ "," ++ compactItems js

def compactFields : List (String × Json) → String
  | [] => ""
  | [(name, j)] => quoted name ++ ":" ++ j.compact
  | (name, j) :: rest => quoted name ++ ":" ++ j.compact ++ "," ++ compactFields rest

end

/-! ## Pretty -/

/-- The start of a line at a level of nesting. -/
def newline (level : Nat) : String :=
  "\n" ++ String.ofList (List.replicate (2 * level) ' ')

mutual

/-- The value as it stands at a level of nesting, the first line without
its indentation. -/
def prettyAt (level : Nat) : Json → String
  | .array (j :: js) =>
    "[" ++ newline (level + 1) ++ prettyAt (level + 1) j ++ prettyItems (level + 1) js ++
      newline level ++ "]"
  | .object ((name, j) :: rest) =>
    "\x7b" ++ newline (level + 1) ++ quoted name ++ ": " ++ prettyAt (level + 1) j ++
      prettyFields (level + 1) rest ++ newline level ++ "\x7d"
  | .null => "null"
  | .bool true => "true"
  | .bool false => "false"
  | .natural n => toString n
  | .numeral text => text
  | .string s => quoted s
  | .array [] => "[]"
  | .object [] => "\x7b\x7d"

/-- The items behind the first one. -/
def prettyItems (level : Nat) : List Json → String
  | [] => ""
  | j :: js => "," ++ newline level ++ prettyAt level j ++ prettyItems level js

/-- The fields behind the first one. -/
def prettyFields (level : Nat) : List (String × Json) → String
  | [] => ""
  | (name, j) :: rest =>
    "," ++ newline level ++ quoted name ++ ": " ++ prettyAt level j ++ prettyFields level rest

end

/-- The value with one item or field on a line. -/
def pretty (j : Json) : String := j.prettyAt 0

end WorkflowScript.Json
