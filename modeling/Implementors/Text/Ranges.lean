/-!
# Ranges of code points

A character class given by a standard is a list of ranges of code points in ascending order, both
ends included. Looking a code point up stops at the first range that ends at or after it.
-/
namespace Implementors.Text

/-- Whether `n` lies in one of the ranges, which have to be in ascending order. -/
def inRanges (n : Nat) : List (Nat × Nat) → Bool
  | [] => false
  | (first, last) :: rest => if n ≤ last then first ≤ n else inRanges n rest

end Implementors.Text
