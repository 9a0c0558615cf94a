/-!
# Patterns

A small pattern language over text. A pattern is tried at a place of the text and goes on from
there; where it has a choice, the ways to match are tried in a fixed order and the first that lets
the rest of the pattern match is taken. Repetition is over single characters only, so a pattern
always comes to an end.

* `Pattern.find?` — the match that starts first.
* `Pattern.findAll` — all matches from left to right, none overlapping an earlier one.
-/

namespace ContainerKeys.Text

/-- A pattern. -/
inductive Pattern where
  /-- Nothing. -/
  | empty
  /-- One character of a class. -/
  | char (p : Char → Bool)
  /-- Characters of a class, as many as possible first. -/
  | many (p : Char → Bool)
  /-- Characters of a class, as few as possible first. -/
  | few (p : Char → Bool)
  /-- One pattern after another. -/
  | andThen (a b : Pattern)
  /-- The first pattern, or else the second. -/
  | orElse (a b : Pattern)
  /-- The start of the text. -/
  | atStart
  /-- The end of the text, or the place before a final line feed. -/
  | atEnd
  /-- A pattern whose span is noted. -/
  | group (a : Pattern)

/-- A place in a text: its offset, the text from there on, and the spans noted on the way, in the
order in which they were completed. -/
structure Place where
  offset : Nat
  rest : List Char
  groups : List (Nat × Nat) := []

/-- Takes characters of the class `p` as long as possible, then goes on with `next`; gives
characters back one by one while `next` fails. -/
def takeMany (p : Char → Bool) (next : Nat → List Char → Option α) :
    Nat → List Char → Option α
  | n, [] => next n []
  | n, c :: rest =>
    if p c then
      match takeMany p next (n + 1) rest with
      | some r => some r
      | none => next n (c :: rest)
    else next n (c :: rest)

/-- Goes on with `next` at once; takes characters of the class `p` one by one while it fails. -/
def takeFew (p : Char → Bool) (next : Nat → List Char → Option α) :
    Nat → List Char → Option α
  | n, [] => next n []
  | n, c :: rest =>
    match next n (c :: rest) with
    | some r => some r
    | none => if p c then takeFew p next (n + 1) rest else none

/-- Matches a pattern at a place and goes on with `next`; the first way to match for which `next`
succeeds is taken. -/
def Pattern.exec : Pattern → Place → (Place → Option α) → Option α
  | .empty, place, next => next place
  | .char p, place, next =>
    match place.rest with
    | [] => none
    | c :: rest => if p c then next ⟨place.offset + 1, rest, place.groups⟩ else none
  | .many p, place, next =>
    takeMany p (fun n rest => next ⟨n, rest, place.groups⟩) place.offset place.rest
  | .few p, place, next =>
    takeFew p (fun n rest => next ⟨n, rest, place.groups⟩) place.offset place.rest
  | .andThen a b, place, next => a.exec place fun middle => b.exec middle next
  | .orElse a b, place, next =>
    match a.exec place next with
    | some r => some r
    | none => b.exec place next
  | .atStart, place, next => if place.offset = 0 then next place else none
  | .atEnd, place, next =>
    if place.rest = [] ∨ place.rest = ['\n'] then next place else none
  | .group a, place, next =>
    a.exec place fun after =>
      next ⟨after.offset, after.rest, after.groups ++ [(place.offset, after.offset)]⟩

/-- A match: its span and the spans of its groups. -/
structure Match where
  start : Nat
  stop : Nat
  groups : List (Nat × Nat)
deriving DecidableEq, Repr

/-- The span of the `n`-th group of a match; the whole match if there is no such group. -/
def Match.group (m : Match) (n : Nat) : Nat × Nat :=
  m.groups.getD n (m.start, m.stop)

/-- The match at one place of a text. -/
def Pattern.matchAt (p : Pattern) (offset : Nat) (rest : List Char) : Option Match :=
  p.exec ⟨offset, rest, []⟩ fun after => some ⟨offset, after.offset, after.groups⟩

/-- The first match in the text from a place on. -/
def Pattern.findFrom (p : Pattern) (offset : Nat) : List Char → Option Match
  | [] => p.matchAt offset []
  | c :: rest =>
    match p.matchAt offset (c :: rest) with
    | some m => some m
    | none => p.findFrom (offset + 1) rest

/-- The match in a text that starts first. -/
def Pattern.find? (p : Pattern) (text : List Char) : Option Match :=
  p.findFrom 0 text

/-- Does the pattern match anywhere in the text? -/
def Pattern.occursIn (p : Pattern) (text : List Char) : Bool :=
  (p.find? text).isSome

/-- All matches from a place on; the search for the next one starts where the last one ends. -/
def Pattern.findAllFrom (p : Pattern) (offset : Nat) : List Char → List Match
  | [] => []
  | c :: rest =>
    match p.matchAt offset (c :: rest) with
    | some m =>
      let taken := m.stop - offset - 1
      m :: p.findAllFrom (offset + 1 + taken) (rest.drop taken)
    | none => p.findAllFrom (offset + 1) rest
termination_by text => text.length
decreasing_by all_goals simp; try omega

/-- All matches of a pattern that takes at least one character, from left to right. -/
def Pattern.findAll (p : Pattern) (text : List Char) : List Match :=
  p.findAllFrom 0 text

/-! ## Derived patterns -/

/-- One pattern after another. -/
def Pattern.seq (ps : List Pattern) : Pattern :=
  ps.foldr .andThen .empty

/-- The characters of a text, one by one. -/
def Pattern.text (s : String) : Pattern :=
  .seq (s.toList.map fun c => .char (· == c))

/-- A pattern if it matches, or else nothing. -/
def Pattern.maybe (p : Pattern) : Pattern :=
  .orElse p .empty

/-- At least one character of a class, as many as possible first. -/
def Pattern.some (p : Char → Bool) : Pattern :=
  .andThen (.char p) (.many p)

end ContainerKeys.Text
