/-!
# Ranges of characters

Character classes of the Unicode standard are kept as tables of ranges.
-/

namespace Schemata

/-- Code points from the first to the second, both included. -/
abbrev CharRange := Nat × Nat

/-- Whether a character lies in one of the ranges. -/
def CharRange.anyContains (ranges : Array CharRange) (c : Char) : Bool :=
  ranges.any fun range => range.1 ≤ c.toNat && c.toNat ≤ range.2

end Schemata
