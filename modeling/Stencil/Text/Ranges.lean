/-!
# Sets of characters given by ranges

A character class of Unicode is a short list of ranges of code points.  This file says what such a
list means; the lists themselves are in the files named after the classes.  They are written down by
the sizes of the ranges and of the gaps between them.
-/

namespace Stencil.Text

/-- The ranges from a code point on, given by how many code points are left out and how many belong,
in turn. -/
def rangesOf : Nat → List Nat → List (Nat × Nat)
  | start, gap :: size :: rest =>
    (start + gap, start + gap + size - 1) :: rangesOf (start + gap + size) rest
  | _, _ => []

def inRanges (ranges : List (Nat × Nat)) (n : Nat) : Bool :=
  ranges.any fun r => r.1 ≤ n && n ≤ r.2

end Stencil.Text
