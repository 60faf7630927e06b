/-!
# Sets of characters as ranges

A set of characters is a table of closed ranges of code points, in
ascending order.
-/

namespace WorkflowScript.Text

abbrev CodeRanges := List (Nat × Nat)

/-- Whether a character lies in one of the ranges. -/
def CodeRanges.covers (ranges : CodeRanges) (c : Char) : Bool :=
  ranges.any fun (lo, hi) => lo ≤ c.toNat && c.toNat ≤ hi

end WorkflowScript.Text
