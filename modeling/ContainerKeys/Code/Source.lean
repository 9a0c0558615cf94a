import ContainerKeys.Code.Node
import ContainerKeys.Position
import ContainerKeys.Text.Utf8

/-!
# Sources

The bytes of a source file give the texts of its nodes and their positions. Lines end at line feeds.
A column counts the characters of the line before the place; broken characters count as one each.
-/

namespace ContainerKeys.Code

/-- The line feed. -/
def lineFeed : UInt8 := 10

/-- The number of lines that end before an offset. -/
def rowOf (source : Bytes) (offset : Nat) : Nat :=
  (source.take offset).count lineFeed

/-- The bytes of the line before an offset. -/
def lineBefore (source : Bytes) (offset : Nat) : Bytes :=
  ((source.take offset).reverse.takeWhile (· ≠ lineFeed)).reverse

/-- The position of an offset, its column in characters. -/
def positionOf (source : Bytes) (offset : Nat) : Position :=
  ⟨rowOf source offset, (Utf8.decodeLossy (lineBefore source offset)).length⟩

/-- The position of an offset, its column in bytes. -/
def bytePositionOf (source : Bytes) (offset : Nat) : Position :=
  ⟨rowOf source offset, (lineBefore source offset).length⟩

namespace Node

/-- The range of a node, its columns in characters. -/
def range (source : Bytes) (n : Node) : Range :=
  ⟨positionOf source n.start, positionOf source n.stop⟩

/-- The range of a node, its columns in bytes. -/
def byteRange (source : Bytes) (n : Node) : Range :=
  ⟨bytePositionOf source n.start, bytePositionOf source n.stop⟩

/-- The bytes of a node. -/
def bytes (source : Bytes) (n : Node) : Bytes :=
  (source.drop n.start).take (n.stop - n.start)

/-- The text of a node. -/
def text (source : Bytes) (n : Node) : Except Utf8.Fault (List Char) :=
  Utf8.decode (n.bytes source)

end Node

end ContainerKeys.Code
