import ContainerKeys.Text.CharSet

/-!
# White space

The blank characters and the removal of blanks around a text.
-/

namespace ContainerKeys.Text

/-- White space of every script: the ASCII blanks, the four information separators, the next-line
control and the space separators. -/
def blankSet : CharSet := ⟨[
  (0x9, 0xd), (0x1c, 0x20), (0x85, 0x85), (0xa0, 0xa0), (0x1680, 0x1680), (0x2000, 0x200a),
  (0x2028, 0x2029), (0x202f, 0x202f), (0x205f, 0x205f), (0x3000, 0x3000)]⟩

/-- Is this character white space? -/
def isBlank (c : Char) : Bool :=
  blankSet.contains c

/-- Drops the last characters of a list as long as `p` holds of them. -/
def dropEndWhile (p : α → Bool) (cs : List α) : List α :=
  (cs.reverse.dropWhile p).reverse

/-- The text without the blanks around it. -/
def trim (cs : List Char) : List Char :=
  dropEndWhile isBlank (cs.dropWhile isBlank)

end ContainerKeys.Text
