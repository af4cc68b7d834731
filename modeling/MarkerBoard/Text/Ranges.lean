/-!
# Classes of characters given by ranges

The tables of this folder list a property of characters as closed ranges of code points, in
ascending order and with gaps between them.
-/
namespace MarkerBoard.Text

/-- The code point lies in one of the closed ranges. -/
def inRanges (ranges : List (Nat × Nat)) (n : Nat) : Bool :=
  ranges.any fun r => r.1 ≤ n && n ≤ r.2

end MarkerBoard.Text
