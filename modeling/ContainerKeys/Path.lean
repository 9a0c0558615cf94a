import ContainerKeys.Text.Lower
import ContainerKeys.Text.Split

/-!
# Paths

Paths are texts with slashes. These functions look at the text only, never at a file system.

* `Path.join` — an absolute second part wins.
* `Path.normalize` — `.`, `..` and repeated slashes are worked out; exactly two leading slashes
  stay, three or more become one.
* `Path.absolute` — the normal form of a path read from a directory.
-/

namespace ContainerKeys

/-- A path in its written form. -/
abbrev Path := String

namespace Path

/-- The parts of a path between its slashes; some may be empty. -/
def parts (p : List Char) : List (List Char) :=
  Text.splitOn '/' p

/-- Does the path start at the root? -/
def isAbsolute (p : Path) : Bool :=
  p.toList.head? = some '/'

/-- The path `q` read from the directory `p`. -/
def join (p q : Path) : Path :=
  if isAbsolute q then q
  else if p.toList.getLast? = none ∨ p.toList.getLast? = some '/' then p ++ q
  else p ++ "/" ++ q

/-- The leading slashes that a normal form keeps. -/
def rootMark : List Char → List Char
  | '/' :: '/' :: '/' :: _ => ['/']
  | '/' :: '/' :: _ => ['/', '/']
  | '/' :: _ => ['/']
  | _ => []

/-- Adds one part to the parts worked out so far, the last of which comes first. -/
def pushPart (rooted : Bool) (done : List (List Char)) (part : List Char) : List (List Char) :=
  if part = [] ∨ part = ['.'] then done
  else if part = ['.', '.'] then
    match done with
    | [] => if rooted then [] else [part]
    | last :: before => if last = ['.', '.'] then part :: done else before
  else part :: done

/-- The parts of a path with `.`, `..` and empty parts worked out. -/
def collapse (rooted : Bool) (ps : List (List Char)) : List (List Char) :=
  (ps.foldl (pushPart rooted) []).reverse

/-- The normal form, on characters. -/
def normalizeChars (p : List Char) : List Char :=
  let mark := rootMark p
  match mark ++ Text.joinWith '/' (collapse (mark ≠ []) (parts p)) with
  | [] => ['.']
  | normal => normal

/-- The normal form of a path. -/
def normalize (p : Path) : Path :=
  String.ofList (normalizeChars p.toList)

/-- The normal form of a path read from the directory `cwd`. -/
def absolute (cwd p : Path) : Path :=
  normalize (join cwd p)

/-- The part of a path after its last slash. -/
def baseChars (p : List Char) : List Char :=
  (p.reverse.takeWhile (· ≠ '/')).reverse

/-- The part of a path after its last slash. -/
def base (p : Path) : String :=
  String.ofList (baseChars p.toList)

/-- The part of a path before its last slash; slashes at its end are dropped unless there is
nothing else. -/
def parentChars (p : List Char) : List Char :=
  let head := (p.reverse.dropWhile (· ≠ '/')).reverse
  match (head.reverse.dropWhile (· = '/')).reverse with
  | [] => head
  | trimmed => trimmed

/-- The directory of a path. -/
def parent (p : Path) : Path :=
  String.ofList (parentChars p.toList)

theorem parentChars_prefix (p : List Char) : parentChars p <+: p := by
  have dropEnd (q : Char → Bool) (l : List Char) : (l.reverse.dropWhile q).reverse <+: l := by
    have := (List.dropWhile_suffix q (l := l.reverse))
    simpa using List.reverse_prefix.mpr this
  have h := dropEnd (· ≠ '/') p
  unfold parentChars
  dsimp only
  split
  · exact h
  · exact (dropEnd (· = '/') _).trans h

/-- A path and the directories above it, up to the one that is its own directory. -/
def ancestorsChars (p : List Char) : List (List Char) :=
  if parentChars p = p then [p] else p :: ancestorsChars (parentChars p)
termination_by p.length
decreasing_by
  have h := parentChars_prefix p
  have := h.length_le
  have : (parentChars p).length ≠ p.length := fun e => ‹¬ parentChars p = p› (h.eq_of_length e)
  omega

/-- A path and the directories above it, nearest first. -/
def ancestors (p : Path) : List Path :=
  (ancestorsChars p.toList).map String.ofList

/-- The extension of a path with its dot. Dots at the start of the last part belong to the name. -/
def extensionChars (p : List Char) : List Char :=
  let name := (baseChars p).dropWhile (· = '.')
  if '.' ∈ name then '.' :: (name.reverse.takeWhile (· ≠ '.')).reverse else []

/-- The extension of a path in lower case. -/
def extension (p : Path) : String :=
  Text.lower (String.ofList (extensionChars p.toList))

/-- The length of the longest common start of two lists. -/
def commonLength [DecidableEq α] : List α → List α → Nat
  | a :: as, b :: bs => if a = b then commonLength as bs + 1 else 0
  | _, _ => 0

/-- The path from the directory `start` to `p`, both read from `cwd`. -/
def relative (cwd start p : Path) : Path :=
  let names (q : Path) := (parts (absolute cwd q).toList).filter (· ≠ [])
  let common := commonLength (names start) (names p)
  let steps := List.replicate ((names start).length - common) ['.', '.'] ++ (names p).drop common
  if steps = [] then "." else String.ofList (Text.joinWith '/' steps)

end Path

end ContainerKeys
