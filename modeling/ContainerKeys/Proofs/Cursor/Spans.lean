import ContainerKeys.Proofs.Answers
import ContainerKeys.Proofs.Cursor.Words

/-!
# The span of a key under the cursor

The key under the cursor is found in a string that is open at the cursor, in which case it is put together
from the text before and behind the cursor, or as a word of the line. Either way it is the text of the line at
its span, and the cursor touches it.

* `Found.Touched` — what is said of a key and its span.
* `exists_of_resolveKey?`, `exists_of_nameAt?` — the two ways to a key.
* `keyAt_touches_cursor` — the key under the cursor, and the range that is shown of it.
-/

namespace ContainerKeys.Cursor

open Text (isNameChar)

/-- The piece is not empty, it is the text of the line at its offsets, and the cursor touches it unless it is
beyond the line. -/
structure Found.Touched (found : Found) (line : List Char) (character : Nat) : Prop where
  nonempty : found.start < found.stop
  within : found.stop ≤ line.length
  text : cut line (found.start, found.stop) = found.text
  touched : character ≤ line.length → found.start ≤ character ∧ character ≤ found.stop

theorem Found.touched_behind {left text : List Char} (right : List Char) {character : Nat}
    (nonempty : text ≠ [])
    (touched : character ≤ (left ++ (text ++ right)).length →
      left.length ≤ character ∧ character ≤ left.length + text.length) :
    (behind left text).Touched (left ++ (text ++ right)) character where
  nonempty := Nat.lt_add_of_pos_right (List.length_pos_iff.mpr nonempty)
  within := by simp
  text := cut_append left text right
  touched := touched

/-! ## The two ways to a key -/

/-- The key in an open string is made of what is typed before the cursor and of what follows there. -/
theorem exists_of_resolveKey? {before after : List Char} {found : Found}
    (h : resolveKey? before after = some found) (oneLine : '\n' ∉ before) :
    ∃ left typed more rest, before = left ++ typed ∧ after = more ++ rest ∧ typed ++ more ≠ [] ∧
      found = .behind left (typed ++ more) := by
  rw [resolveKey?] at h
  cases opened : openString? before with
  | none => simp [opened] at h
  | some s =>
    rcases exists_openIn_of_line opened oneLine with ⟨head, openIn⟩
    have split : before = (head ++ [s.quote]) ++ s.typed := by
      simpa using openIn.split
    have start : s.start = (head ++ [s.quote]).length := by
      rw [openIn.start, List.length_append, List.length_singleton]
    -- the key goes on to the closing quote, or as long as it is a name
    obtain ⟨more, rest, follows, key⟩ : ∃ more rest, after = more ++ rest ∧
        (if s.typed ++ more = [] then none
          else some (⟨s.typed ++ more, s.start, s.start + (s.typed ++ more).length⟩ : Found)) = some found := by
      simp only [opened] at h
      cases closed : offsetOf? s.quote after with
      | some n =>
        rw [closed] at h
        exact ⟨after.take n, after.drop n, (List.take_append_drop n after).symm, h⟩
      | none =>
        rw [closed] at h
        exact ⟨after.takeWhile isNameChar, after.dropWhile isNameChar, List.takeWhile_append_dropWhile.symm, h⟩
    by_cases empty : s.typed ++ more = []
    · rw [if_pos empty] at key
      cases key
    · rw [if_neg empty, start] at key
      exact ⟨_, s.typed, more, rest, split, follows, empty, (Option.some.inj key).symm⟩

/-- The name at the cursor is a part of the line that the cursor touches. -/
theorem exists_of_nameAt? {line : List Char} {character : Nat} {found : Found}
    (h : nameAt? line character = some found) :
    ∃ left name right, line = left ++ (name ++ right) ∧ name ≠ [] ∧ found = .behind left name ∧
      left.length ≤ character ∧ character ≤ left.length + name.length := by
  rcases Option.map_eq_some_iff.mp h with ⟨m, first, rfl⟩
  have mem : m ∈ name.findAllFrom ([] : List Char).length line := List.mem_of_find?_eq_some first
  rcases Text.Pattern.exists_occursAt_of_mem_findAllFrom [] mem with
    ⟨left, taken, right, occurs, start, stop, -⟩
  have split : line = left ++ (taken ++ right) := occurs.split
  have nonempty : taken ≠ [] := (Text.Pattern.takes_some.mp occurs.takes).1
  have touches := List.find?_some first
  simp only [Bool.and_eq_true, decide_eq_true_eq] at touches
  refine ⟨left, taken, right, split, nonempty, ?_, by omega, by omega⟩
  rw [start, stop, split, cut_append]
  rfl

theorem keyAt_cases {line : List Char} {character : Int} {found : Found}
    (h : keyAt line character = some found) :
    resolveKey? (Text.sliceTo line character) (Text.sliceFrom line character) = some found ∨
      nameAt? line character = some found := by
  rw [keyAt] at h
  split at h
  · rename_i inString
    exact .inl (inString.trans h)
  · split at h
    · cases h
    · rename_i word named
      split at h
      · exact .inr (named.trans h)
      · cases h

theorem touched_of_keyAt {line : List Char} {character : Nat} {found : Found} (oneLine : '\n' ∉ line)
    (h : keyAt line character = some found) : found.Touched line character := by
  rcases keyAt_cases h with inString | named
  · rw [sliceTo_natCast, sliceFrom_natCast] at inString
    have before : '\n' ∉ line.take character := fun mem => oneLine (List.mem_of_mem_take mem)
    rcases exists_of_resolveKey? inString before with ⟨left, typed, more, rest, front, back, nonempty, rfl⟩
    have split : line = left ++ ((typed ++ more) ++ rest) := by
      rw [← List.take_append_drop character line, front, back]
      simp only [List.append_assoc]
    have length : min character line.length = left.length + typed.length := by
      rw [← List.length_take, front, List.length_append]
    rw [split] at length ⊢
    apply Found.touched_behind rest nonempty
    -- the cursor stands between what is typed and what follows
    intro inside
    rw [Nat.min_eq_left inside] at length
    rw [List.length_append]
    omega
  · rcases exists_of_nameAt? named with ⟨left, name, right, rfl, nonempty, rfl, start, stop⟩
    exact Found.touched_behind right nonempty fun _ => ⟨start, stop⟩

end ContainerKeys.Cursor

namespace ContainerKeys

open Cursor

namespace Index

variable {index : Index} {files : FileTree} {c : CursorAt} {file : Path} {text : String}

/-- A cursor outside of all usages is answered from the text of its line. -/
theorem outcome_keyUnder_of_text (absolute : files.absolute c.file = .ok file)
    (unused : index.usageAt? file c.position = none) (line : (lineAt files c).outcome = .ok (some text)) :
    (index.keyUnder files c).outcome = .ok (keyInText c.position text) := by
  rw [keyUnder, Attempt.outcome_bind_eq_ok]
  refine ⟨file, absolute, ?_⟩
  simp only [unused]
  rw [Attempt.outcome_bind_eq_ok]
  exact ⟨some text, line, rfl⟩

/-- What is shown there is a key of the line, with its span. -/
theorem exists_found_of_hover (absolute : files.absolute c.file = .ok file)
    (unused : index.usageAt? file c.position = none) (line : (lineAt files c).outcome = .ok (some text))
    {hover : Hover} (shown : (index.hover files c).outcome = .ok (some hover)) :
    ∃ found, keyAt text.toList c.position.character = some found ∧ hover.key = String.ofList found.text ∧
      hover.range = ⟨⟨c.position.line, found.start⟩, ⟨c.position.line, found.stop⟩⟩ := by
  have under := outcome_keyUnder_of_text absolute unused line
  cases key : keyAt text.toList c.position.character with
  | none =>
    have nothing : (index.hover files c).outcome = .ok none := by
      rw [Index.hover, Attempt.outcome_bind, under, keyInText, key]
      rfl
    rw [nothing] at shown
    cases shown
  | some found =>
    rw [keyInText, key, Option.map_some] at under
    rw [outcome_hover_of_keyUnder under] at shown
    rcases Option.map_eq_some_iff.mp (Except.ok.inj shown) with ⟨d, -, rfl⟩
    exact ⟨found, rfl, rfl, rfl⟩

end Index

/-- The key under a cursor in a line is not empty and is the text of the line at its span; the span touches the
cursor if the cursor is not beyond the line. So does the range that is shown of a key where no usage is
known. -/
theorem keyAt_touches_cursor {line : List Char} (oneLine : '\n' ∉ line) (character : Nat) :
    (∀ found, keyAt line character = some found → found.Touched line character) ∧
    ∀ (index : Index) (files : FileTree) (c : CursorAt) (file : Path) (hover : Hover),
      files.absolute c.file = .ok file → index.usageAt? file c.position = none →
      (Index.lineAt files c).outcome = .ok (some (String.ofList line)) → c.position.character = character →
      (index.hover files c).outcome = .ok (some hover) →
      ∃ found : Found, found.Touched line character ∧ hover.key = String.ofList found.text ∧
        hover.range = ⟨⟨c.position.line, found.start⟩, ⟨c.position.line, found.stop⟩⟩ := by
  constructor
  · intro found h
    exact touched_of_keyAt oneLine h
  · intro index files c file hover absolute unused text column shown
    rcases Index.exists_found_of_hover absolute unused text shown with ⟨found, h, key, range⟩
    rw [String.toList_ofList, column] at h
    exact ⟨found, touched_of_keyAt oneLine h, key, range⟩

/-- A cursor at the end of a line that was typed after the build, in a string that is not closed. -/
def inTypedLine : CursorAt := ⟨"/w/a.js", ⟨2, 12⟩, some "c.resolve('k"⟩

/-- What is shown there has the key of the string and its span. -/
theorem keyAt_touches_cursor_typed :
    (⟨['k'], 11, 12⟩ : Found).Touched "c.resolve('k".toList 12 ∧
      ∃ (hover : Hover) (found : Found),
        (indexOfElsewhere.hover (holding []).files inTypedLine).outcome = .ok (some hover) ∧
        hover.definition = elsewhere ∧ found.Touched "c.resolve('k".toList 12 ∧
        hover.key = String.ofList found.text ∧ hover.range = ⟨⟨2, found.start⟩, ⟨2, found.stop⟩⟩ := by
  have key : keyAt "c.resolve('k".toList 12 = some ⟨['k'], 11, 12⟩ := by decide
  have absolute : (holding []).files.absolute inTypedLine.file = .ok "/w/a.js" := by decide
  have unused : indexOfElsewhere.usageAt? "/w/a.js" inTypedLine.position = none := by decide
  have line : (Index.lineAt (holding []).files inTypedLine).outcome =
      .ok (some (String.ofList "c.resolve('k".toList)) := rfl
  have under : (indexOfElsewhere.keyUnder (holding []).files inTypedLine).outcome =
      .ok (some ⟨"k", ⟨2, 11⟩, ⟨2, 12⟩⟩) := by
    rw [Index.outcome_keyUnder_of_text absolute unused line, Index.keyInText, String.toList_ofList]
    rw [show inTypedLine.position.character = 12 from rfl, key]
    rfl
  have shown : (indexOfElsewhere.hover (holding []).files inTypedLine).outcome =
      .ok (some ⟨"k", elsewhere, ⟨2, 11⟩, ⟨2, 12⟩⟩) := by
    rw [Index.outcome_hover_of_keyUnder under]
    rfl
  obtain ⟨touched, ranges⟩ := @keyAt_touches_cursor "c.resolve('k".toList (by decide) 12
  rcases ranges _ _ inTypedLine "/w/a.js" _ absolute unused line rfl shown with ⟨found, covers, text, range⟩
  exact ⟨touched _ key, _, found, shown, rfl, covers, text, range⟩

end ContainerKeys
