/-!
# Sets of characters as ranges of code points

A class of characters is written down as the inclusive ranges of code points
it covers.  `CodeRanges.contains` is membership; the tables of this folder are
values of `CodeRanges`.
-/

namespace QueryFormula

/-- A set of characters: the inclusive ranges of their code points. -/
abbrev CodeRanges := List (Nat × Nat)

/-- A character belongs to the set when some range covers its code point. -/
def CodeRanges.contains (ranges : CodeRanges) (c : Char) : Bool :=
  ranges.any fun range => range.1 ≤ c.toNat && c.toNat ≤ range.2

end QueryFormula
