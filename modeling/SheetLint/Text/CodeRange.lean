/-!
# Code ranges

Closed intervals of code points, the form in which character classes are listed.
-/

namespace SheetLint.Text

/-- The code points from `first` to `last`, both included. -/
structure CodeRange where
  first : Nat
  last : Nat

namespace CodeRange

/-- The code point lies in the interval. -/
def contains (range : CodeRange) (code : Nat) : Bool :=
  range.first ≤ code && code ≤ range.last

/-- Membership in a list of intervals that increase: the search ends at the first interval that
    begins after the code point. -/
def anyContains : List CodeRange → Nat → Bool
  | [], _ => false
  | range :: ranges, code =>
    if code < range.first then false
    else range.contains code || anyContains ranges code

end CodeRange

end SheetLint.Text
