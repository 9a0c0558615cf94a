import ContainerKeys.Code.Node

/-!
# Outlines

A tree written flat: its nodes in pre-order, each with its depth.
-/

namespace ContainerKeys.Code

/-- A node of an outline. -/
structure Row where
  depth : Nat
  label : Label

namespace Outline

/-- Closes the innermost open nodes until `depth` of them are left. An open node holds its children
in reverse; a closed one goes to the node around it. -/
def close (depth : Nat) : List (Label × List Node) → List (Label × List Node)
  | inner :: outer :: rest =>
    if depth ≤ rest.length + 1 then
      close depth ((outer.1, .mk inner.1 inner.2.reverse :: outer.2) :: rest)
    else inner :: outer :: rest
  | stack => stack
termination_by stack => stack.length

/-- Reads rows with the given nodes still open. -/
def readRows (stack : List (Label × List Node)) : List Row → List (Label × List Node)
  | [] => close 1 stack
  | row :: rest => readRows ((row.label, []) :: close row.depth stack) rest

/-- The tree of an outline; none for an empty one. -/
def toNode? : List Row → Option Node
  | [] => none
  | row :: rest =>
    match readRows [(row.label, [])] rest with
    | (label, children) :: _ => some (.mk label children.reverse)
    | [] => none

end Outline

end ContainerKeys.Code
