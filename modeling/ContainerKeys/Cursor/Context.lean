import ContainerKeys.Cursor.Forms
import ContainerKeys.Text.Split

/-!
# The cursor and the text around it

The cursor often stands in half-typed code, so these functions look at the text of one line only.
`detect` tells what may be completed at the cursor; `keyAt` finds the container key under it.
-/

namespace ContainerKeys.Cursor

open Text (Pattern Match)

/-- What may be completed at a cursor. -/
inductive Context where
  /-- The key in the string of a `resolve` call, which stands at the offsets from `start` up to
  `stop`. -/
  | resolveString (start stop : Nat)
  /-- The name after `.cradle.`. -/
  | cradleDot
  /-- A name in a destructured parameter list. -/
  | destructuring
deriving DecidableEq, Repr

/-- The part of a text at a span. -/
def cut (text : List Char) (span : Nat × Nat) : List Char :=
  (text.drop span.1).take (span.2 - span.1)

/-- The offset of the first `c` in a text. -/
def offsetOf? (c : Char) : List Char → Option Nat
  | [] => none
  | d :: rest => if d = c then some 0 else (offsetOf? c rest).map (· + 1)

/-- A string of a `resolve` call that is open at the cursor. -/
structure OpenString where
  quote : Char
  /-- The offset just after the quote. -/
  start : Nat
  /-- What is typed of the key. -/
  typed : List Char

/-- The string of a `resolve` call that is open at the end of a text. -/
def openString? (before : List Char) : Option OpenString := do
  let m ← openResolve.find? before
  let quote ← (cut before (m.group 0)).head?
  return ⟨quote, (m.group 1).1, cut before (m.group 1)⟩

/-- The span that a completion in a `resolve` string replaces. There is none if the string is
closed right at the cursor. -/
def resolveSpan? (before after : List Char) : Option (Nat × Nat) :=
  match openString? before with
  | none => none
  | some s =>
    match offsetOf? s.quote after with
    | some 0 => none
    | some n => some (s.start, before.length + n)
    | none => some (s.start, before.length + after.length)

/-- Tells what may be completed between two texts. -/
def detect (before after : List Char) : Option Context :=
  match resolveSpan? before after with
  | some (start, stop) => some (.resolveString start stop)
  | none =>
    if openCradle.occursIn before then some .cradleDot
    else if openConstructor.occursIn before || openFunction.occursIn before then
      some .destructuring
    else none

/-- A piece of a line: its text and the offsets of its start and end. -/
structure Found where
  text : List Char
  start : Nat
  stop : Nat
deriving DecidableEq, Repr

/-- The first name of a line that the cursor touches. -/
def nameAt? (line : List Char) (character : Int) : Option Found :=
  ((name.findAll line).find? fun m => m.start ≤ character && character ≤ m.stop).map fun m =>
    ⟨cut line (m.start, m.stop), m.start, m.stop⟩

/-- The names bound by a list of destructured parameters, without renamings and defaults. -/
def parameterNames (list : List Char) : List (List Char) :=
  ((Text.splitOn ',' list).map fun parameter =>
    Text.trim ((parameter.takeWhile (· ≠ ':')).takeWhile (· ≠ '='))).filter (· ≠ [])

/-- The key in the open string of a `resolve` call. It goes on up to the closing quote, or, in an
unclosed string, up to the end of the name at the cursor. -/
def resolveKey? (before after : List Char) : Option Found :=
  match openString? before with
  | none => none
  | some s =>
    let more :=
      match offsetOf? s.quote after with
      | some n => after.take n
      | none => after.takeWhile Text.isNameChar
    let key := s.typed ++ more
    if key = [] then none else some ⟨key, s.start, s.start + key.length⟩

/-- Is the name read from the cradle in this line? -/
def isCradleMember (line : List Char) (found : Found) : Bool :=
  (cradleMember.findAll line).any fun m => m.group 0 = (found.start, found.stop)

/-- Is the name one of the parameters of the first list of this form in the line? -/
def isParameter (form : Pattern) (line : List Char) (found : Found) : Bool :=
  match form.find? line with
  | none => false
  | some m =>
    let list := m.group 0
    list.1 ≤ found.start && found.stop ≤ list.2 &&
      found.text ∈ parameterNames (cut line list)

/-- The container key under the cursor, from the text of its line alone. -/
def keyAt (line : List Char) (character : Int) : Option Found :=
  match resolveKey? (Text.sliceTo line character) (Text.sliceFrom line character) with
  | some found => some found
  | none =>
    match nameAt? line character with
    | none => none
    | some found =>
      if isCradleMember line found || isParameter closedConstructor line found ||
          isParameter closedFunction line found then
        some found
      else none

end ContainerKeys.Cursor
