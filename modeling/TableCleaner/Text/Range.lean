/-!
# Ranges of code points

A character class is a table of ranges, ends included.
-/

namespace TableCleaner.Text

/-- Some range of the table holds the character. -/
def inRanges (ranges : Array (Nat × Nat)) (c : Char) : Bool :=
  ranges.any fun r => r.1 ≤ c.toNat && c.toNat ≤ r.2

end TableCleaner.Text
