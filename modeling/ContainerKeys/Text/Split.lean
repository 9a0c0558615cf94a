/-!
# Cutting and joining text

Lists of characters are cut at a separator and joined with one, and sliced at signed offsets: a
negative offset counts from the end, and an offset beyond an end stands for that end.
-/

namespace ContainerKeys.Text

/-- The pieces of a list between the occurrences of `sep`; always at least one piece. -/
def splitOn [DecidableEq α] (sep : α) : List α → List (List α)
  | [] => [[]]
  | c :: rest =>
    if c = sep then [] :: splitOn sep rest
    else
      match splitOn sep rest with
      | [] => [[c]]
      | piece :: pieces => (c :: piece) :: pieces

/-- The pieces one after another with `sep` between them. -/
def joinWith (sep : α) : List (List α) → List α
  | [] => []
  | [piece] => piece
  | piece :: pieces => piece ++ sep :: joinWith sep pieces

/-- The index that the signed offset `n` names in a list of the given length. -/
def offsetIndex (length : Nat) (n : Int) : Nat :=
  if n < 0 then (length + n).toNat else min n.toNat length

/-- The part of a list before a signed offset. -/
def sliceTo (cs : List α) (n : Int) : List α :=
  cs.take (offsetIndex cs.length n)

/-- The part of a list from a signed offset on. -/
def sliceFrom (cs : List α) (n : Int) : List α :=
  cs.drop (offsetIndex cs.length n)

/-- The two slices at one offset make up the whole. -/
@[simp] theorem sliceTo_append_sliceFrom (cs : List α) (n : Int) :
    sliceTo cs n ++ sliceFrom cs n = cs :=
  List.take_append_drop _ _

/-- The strings one after another with `sep` between them. -/
def joinStrings (sep : String) : List String → String
  | [] => ""
  | [s] => s
  | s :: rest => s ++ sep ++ joinStrings sep rest

end ContainerKeys.Text
