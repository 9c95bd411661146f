/-!
# Code point ranges

Properties of characters are kept as ascending lists of closed code point ranges. Membership stops
at the first range that begins above the code point, so a character near the start of a long table
is decided early.
-/

namespace ContractAudit.Text

/-- A closed range of code points, first and last. -/
abbrev CodeRange := Nat × Nat

/-- Whether a code point lies in one of the ranges, which must ascend. -/
def inRanges : List CodeRange → Nat → Bool
  | [], _ => false
  | (first, last) :: rest, n => if n < first then false else if n ≤ last then true else inRanges rest n

end ContractAudit.Text
