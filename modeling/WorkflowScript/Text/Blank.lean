import WorkflowScript.Text.CodeRanges

/-!
# Blank characters

The characters with the Unicode property White_Space, as a table of
closed ranges of code points. The zero-width space, the byte-order mark
and the information separators are not among them.
-/

namespace WorkflowScript.Text

/-- The ranges of White_Space, in ascending order. -/
def blankRanges : CodeRanges :=
  [ (0x09, 0x0D), (0x20, 0x20), (0x85, 0x85), (0xA0, 0xA0), (0x1680, 0x1680),
    (0x2000, 0x200A), (0x2028, 0x2029), (0x202F, 0x202F), (0x205F, 0x205F),
    (0x3000, 0x3000) ]

/-- Whether a character separates tokens. -/
def isBlank (c : Char) : Bool := blankRanges.covers c

end WorkflowScript.Text
