/-!
# Sets of code points

A set of characters is given by ranges of code points with both ends
included. The tables that use it are named for the Unicode property they hold
and follow version 17.0 of the standard.
-/

namespace EntityQuery.Unicode

/-- The characters of some ranges of code points, both ends included. -/
structure CodePoints where
  ranges : List (Nat × Nat)

/-- Whether a character lies in one of the ranges. -/
def CodePoints.contains (set : CodePoints) (c : Char) : Bool :=
  set.ranges.any fun range => range.1 ≤ c.toNat && c.toNat ≤ range.2

end EntityQuery.Unicode
