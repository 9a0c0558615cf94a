/-!
# Positions and ranges

Lines and characters count from zero.
-/

namespace ContainerKeys

/-- A place in a text. -/
structure Position where
  line : Int
  character : Int
deriving DecidableEq, Repr, Inhabited

namespace Position

/-- Positions in the order of the text: by line, then by character. -/
instance : LE Position where
  le p q := p.line < q.line ∨ p.line = q.line ∧ p.character ≤ q.character

theorem le_iff {p q : Position} :
    p ≤ q ↔ p.line < q.line ∨ p.line = q.line ∧ p.character ≤ q.character := Iff.rfl

instance (p q : Position) : Decidable (p ≤ q) := decidable_of_iff' _ le_iff

end Position

/-- A span of text between two positions. -/
structure Range where
  start : Position
  stop : Position
deriving DecidableEq, Repr, Inhabited

/-- Is the position inside the range? Both ends count as inside. -/
def Range.contains (r : Range) (p : Position) : Bool :=
  if p.line < r.start.line || r.stop.line < p.line then false
  else if p.line = r.start.line && p.character < r.start.character then false
  else if p.line = r.stop.line && r.stop.character < p.character then false
  else true

end ContainerKeys
