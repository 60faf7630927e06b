import WorkflowScript.Text.Unprintable

/-!
# Quoted text

How a path is shown inside a log record: in double quotes, on one line,
with every character that could be misread written as an escape.
-/

namespace WorkflowScript.Text

/-- The hexadecimal digits of `n`, lower case, without leading zeros. -/
def hexDigits (n : Nat) : String := String.ofList (Nat.toDigits 16 n)

/-- The written form of one character between quotes: backslash, both
quotes and the usual control characters by name, and whatever else does
not show on its own by number. -/
def quoteChar (c : Char) : String :=
  match c with
  | '\x00' => "\\0"
  | '\t' => "\\t"
  | '\n' => "\\n"
  | '\r' => "\\r"
  | '\\' => "\\\\"
  | '"' => "\\\""
  | '\'' => "\\'"
  | c =>
    if isUnprintable c then "\\u\x7b" ++ hexDigits c.toNat ++ "\x7d"
    else String.singleton c

/-- The text between double quotes. -/
def quote (s : String) : String :=
  "\"" ++ String.join (s.toList.map quoteChar) ++ "\""

end WorkflowScript.Text
