/-!
# Sets of characters

A set of characters is a list of ranges of code points. The ranges ascend, so a search stops at
the first range that starts beyond the character.
-/

namespace ContainerKeys.Text

/-- A set of characters: ascending ranges of code points, both ends included. -/
structure CharSet where
  ranges : List (Nat × Nat)

/-- Is `code` in one of the ascending `ranges`? -/
def inRanges (code : Nat) : List (Nat × Nat) → Bool
  | [] => false
  | (lo, hi) :: rest => lo ≤ code && (code ≤ hi || inRanges code rest)

/-- Membership of a character. -/
def CharSet.contains (s : CharSet) (c : Char) : Bool :=
  inRanges c.toNat s.ranges

end ContainerKeys.Text
