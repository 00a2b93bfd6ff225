/-!
# Ranges of characters

A class of characters as a list of ranges of character numbers, both ends included.
-/

namespace SchemaVault.Text

/-- Whether `n` lies in one of the ranges. -/
def inRanges (ranges : List (Nat × Nat)) (n : Nat) : Bool :=
  ranges.any fun (first, last) => first ≤ n && n ≤ last

end SchemaVault.Text
