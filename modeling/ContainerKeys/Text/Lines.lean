/-!
# Lines of text

A line ends at a line feed, at a carriage return, or at both in a row. A printed line ends at the other
line ends of Unicode as well.

* `Text.lines` — the lines of a file.
* `Text.printedLines` — the lines of a printed text.
-/

namespace ContainerKeys.Text

/-- The lines of a text without their ends, which are the characters of the class `ends`; a carriage
return and a line feed in a row are one end. A text that ends with a line end has no further line. -/
def linesBy (ends : Char → Bool) : List Char → List (List Char)
  | [] => []
  | '\r' :: '\n' :: rest => [] :: linesBy ends rest
  | c :: rest =>
    if ends c then [] :: linesBy ends rest
    else
      match linesBy ends rest with
      | [] => [[c]]
      | line :: more => (c :: line) :: more

/-- The lines of a text without their ends. -/
def lines (text : List Char) : List (List Char) :=
  linesBy (fun c => c = '\n' || c = '\r') text

/-- Is this a line end of Unicode? -/
def isLineEnd (c : Char) : Bool :=
  c.toNat ∈ [0xA, 0xB, 0xC, 0xD, 0x1C, 0x1D, 0x1E, 0x85, 0x2028, 0x2029]

/-- The lines of a printed text without their ends. -/
def printedLines (text : List Char) : List (List Char) :=
  linesBy isLineEnd text

end ContainerKeys.Text
