import ContainerKeys.Text.Width

/-!
# Clusters

A text falls into clusters, each of which is shown as one: a character with the marks after it, and with
the characters that joiners tie to it. A text is cut to a width between clusters only.

* `Text.clusters` — the clusters of a text.
* `Text.takeWidth?`, `Text.chop` — the start of a text that fills a width, and a text cut into pieces.
-/

namespace ContainerKeys.Text

/-- A cluster: its characters and the number of cells that it takes. -/
structure Cluster where
  chars : List Char
  width : Nat
deriving DecidableEq, Repr

/-- The cluster with more characters that take no cells. -/
def Cluster.attach (k : Cluster) (more : List Char) : Cluster :=
  { k with chars := k.chars ++ more }

/-- Completes the cluster begun so far and goes on with the rest of a text; `last` is the character
measured last, unless the emoji selector has been applied to it. -/
def clustersFrom (begun : Cluster) (last : Option Char) : List Char → List Cluster
  | [] => [begun]
  | c :: rest =>
    if c = joiner then
      match rest with
      | [] => [begun.attach [c]]
      | d :: rest => clustersFrom (begun.attach [c, d]) last rest
    else if c = emojiSelector ∧ isWidened last then
      clustersFrom ⟨begun.chars ++ [c], begun.width + 1⟩ none rest
    else if charWidth c = 0 then clustersFrom (begun.attach [c]) last rest
    else begun :: clustersFrom ⟨[c], charWidth c⟩ (some c) rest

/-- The clusters of a text. -/
def clusters : List Char → List Cluster
  | [] => []
  | c :: rest =>
    clustersFrom ⟨[c], charWidth c⟩ (if charWidth c = 0 then none else some c) rest

/-- The first clusters that fill a width. A cluster that fits only in part gives way to a space. There are
none if all clusters together do not reach the width. -/
def takeWidth? (width : Nat) : List Cluster → Option (List Char)
  | [] => if width = 0 then some [] else none
  | k :: rest =>
    if width = 0 then some []
    else if k.width ≤ width then (takeWidth? (width - k.width) rest).map (k.chars ++ ·)
    else some [' ']

/-- Cuts clusters into pieces no wider than a width; the piece begun so far takes `column` cells. -/
def chopFrom (width column : Nat) (begun : List Char) : List Cluster → List (List Char)
  | [] => if column = 0 then [] else [begun]
  | k :: rest =>
    if width < column + k.width then begun :: chopFrom width k.width k.chars rest
    else chopFrom width (column + k.width) (begun ++ k.chars) rest

/-- Cuts clusters into pieces no wider than a width. -/
def chop (width : Nat) (ks : List Cluster) : List (List Char) :=
  chopFrom width 0 [] ks

end ContainerKeys.Text
