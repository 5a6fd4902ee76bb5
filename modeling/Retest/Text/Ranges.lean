/-!
# Character classes as ranges

A class of characters of a standard is a table of ranges of code points. The
tables of this library are increasing, so a look-up stops at the first range
that begins above the code point.
-/

namespace Retest.Text

/-- A table of ranges `(first, last)` of code points, in increasing order. -/
abbrev Ranges := List (Nat × Nat)

/-- Whether a code point lies in one of the ranges of an increasing table. -/
def Ranges.covers : Ranges → Nat → Bool
  | [], _ => false
  | (first, last) :: rest, n => decide (first ≤ n) && (decide (n ≤ last) || covers rest n)

end Retest.Text
