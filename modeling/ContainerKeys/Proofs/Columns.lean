import ContainerKeys.Proofs.Characters
import Mathlib.Data.List.Induction

/-!
# Rows and columns of a text

The position of an offset counts the line feeds before it and the characters behind the last of them. Whatever
the bytes are, it follows the offset. If they are the bytes of a text, two places between characters never
share a position.

* `Code.lineBefore_of_split` — the line before an offset starts behind the last line feed.
* `Code.positionOf_encode` — rows and columns of a text.
* `Code.position_follows_offset` — positions follow offsets, and ranges follow spans.
-/

namespace ContainerKeys

/-- Positions strictly in the order of the text. -/
instance : LT Position where
  lt p q := p.line < q.line ∨ p.line = q.line ∧ p.character < q.character

theorem Position.lt_iff {p q : Position} :
    p < q ↔ p.line < q.line ∨ p.line = q.line ∧ p.character < q.character := Iff.rfl

/-! ## Where a line starts -/

section

variable {α : Type}

/-- A line starts behind these: there are none of them, or the last one ends a line. -/
def LineStart (ending : α) (front : List α) : Prop :=
  front = [] ∨ ∃ earlier, front = earlier ++ [ending]

/-- Some line is the last one. -/
theorem exists_lineStart [DecidableEq α] (ending : α) (xs : List α) :
    ∃ front line, xs = front ++ line ∧ LineStart ending front ∧ ending ∉ line := by
  induction xs using List.reverseRecOn with
  | nil => exact ⟨[], [], rfl, .inl rfl, List.not_mem_nil⟩
  | append_singleton xs x ih =>
    by_cases ends : x = ending
    · exact ⟨xs ++ [x], [], (List.append_nil _).symm, .inr ⟨xs, by rw [ends]⟩, List.not_mem_nil⟩
    · rcases ih with ⟨front, line, rfl, start, plain⟩
      refine ⟨front, line ++ [x], List.append_assoc .., start, ?_⟩
      rw [List.mem_append, List.mem_singleton]
      exact not_or.mpr ⟨plain, Ne.symm ends⟩

end

namespace Code

theorem lineBefore_of_split {source front line : Bytes} {offset : Nat}
    (split : source.take offset = front ++ line) (start : LineStart lineFeed front)
    (plain : lineFeed ∉ line) : lineBefore source offset = line := by
  have all : ∀ b ∈ line.reverse, decide (b ≠ lineFeed) = true := by
    intro b hb
    exact decide_eq_true fun e => plain (e ▸ List.mem_reverse.mp hb)
  unfold lineBefore
  rw [split, List.reverse_append, List.takeWhile_append_of_pos all]
  rcases start with rfl | ⟨earlier, rfl⟩
  · rw [List.reverse_nil, List.takeWhile_nil, List.append_nil, List.reverse_reverse]
  · rw [List.reverse_concat, List.takeWhile_cons_of_neg (by simp), List.append_nil, List.reverse_reverse]

/-! ## Rows and columns -/

theorem eq_of_lineFeed_mem {c : Char} (h : lineFeed ∈ String.utf8EncodeChar c) : c = '\n' := by
  have same := Utf8.toNat_of_mem_encodeChar h (by decide)
  rw [← Char.ofNat_toNat c, same]
  rfl

theorem lineFeed_notMem_encode {cs : List Char} (h : '\n' ∉ cs) :
    lineFeed ∉ Utf8.encode (String.ofList cs) := by
  rw [Utf8.encode_ofList, List.mem_flatMap]
  rintro ⟨c, member, feed⟩
  exact h (eq_of_lineFeed_mem feed ▸ member)

theorem count_encode (cs : List Char) :
    (Utf8.encode (String.ofList cs)).count lineFeed = cs.count '\n' := by
  rw [Utf8.encode_ofList]
  induction cs with
  | nil => rfl
  | cons c cs ih =>
    rw [List.flatMap_cons, List.count_append, ih, List.count_cons, Nat.add_comm]
    congr 1
    -- of all characters only the line feed holds that byte
    by_cases feed : c = '\n'
    · rw [feed]
      rfl
    · rw [List.count_eq_zero.mpr fun h => feed (eq_of_lineFeed_mem h), if_neg (by simpa using feed)]

theorem lineStart_encode {front : List Char} (h : LineStart '\n' front) :
    LineStart lineFeed (Utf8.encode (String.ofList front)) := by
  rcases h with rfl | ⟨earlier, rfl⟩
  · left
    rw [Utf8.encode_ofList, List.flatMap_nil]
  · right
    refine ⟨Utf8.encode (String.ofList earlier), ?_⟩
    rw [Utf8.encode_ofList_append]
    congr 1
    rw [Utf8.encode_ofList]
    rfl

theorem take_encode (before after : List Char) :
    (Utf8.encode (String.ofList (before ++ after))).take (Utf8.encode (String.ofList before)).length =
      Utf8.encode (String.ofList before) := by
  rw [Utf8.encode_ofList_append before after, List.take_left]

theorem rowOf_encode (before after : List Char) :
    rowOf (Utf8.encode (String.ofList (before ++ after))) (Utf8.encode (String.ofList before)).length =
      before.count '\n' := by
  rw [rowOf, take_encode, count_encode]

/-- The position of a place in a text: its row counts the line feeds before it, and its column the
characters behind the last of them. -/
theorem positionOf_encode {front line : List Char} (after : List Char) (start : LineStart '\n' front)
    (plain : '\n' ∉ line) :
    positionOf (Utf8.encode (String.ofList (front ++ line ++ after)))
        (Utf8.encode (String.ofList (front ++ line))).length =
      ⟨front.count '\n', line.length⟩ := by
  have column := lineBefore_of_split
    ((take_encode (front ++ line) after).trans (Utf8.encode_ofList_append front line))
    (lineStart_encode start) (lineFeed_notMem_encode plain)
  rw [positionOf, rowOf_encode, column, Utf8.decodeLossy_encode, String.toList_ofList, List.count_append,
    List.count_eq_zero.mpr plain, Nat.add_zero]

/-- More characters of a text lead to a later position. -/
theorem positionOf_encode_lt (before after : List Char) {between : List Char} (some : between ≠ []) :
    positionOf (Utf8.encode (String.ofList (before ++ between ++ after)))
        (Utf8.encode (String.ofList before)).length <
      positionOf (Utf8.encode (String.ofList (before ++ between ++ after)))
        (Utf8.encode (String.ofList (before ++ between))).length := by
  rcases exists_lineStart '\n' before with ⟨front, line, rfl, start, plain⟩
  have here := positionOf_encode (between ++ after) start plain
  rw [← List.append_assoc] at here
  rw [here, Position.lt_iff]
  by_cases feed : '\n' ∈ between
  -- a line ends on the way
  · left
    have later : 0 < between.count '\n' := List.count_pos_iff.mpr feed
    show (front.count '\n' : Int) < (rowOf _ _ : Nat)
    rw [rowOf_encode, List.count_append, List.count_append]
    omega
  -- all of it stands on the same line
  · right
    have plain' : '\n' ∉ line ++ between := fun h => (List.mem_append.mp h).elim plain feed
    have there := positionOf_encode after start plain'
    rw [← List.append_assoc] at there
    have longer : 0 < between.length := List.length_pos_iff.mpr some
    rw [there, List.length_append]
    exact ⟨rfl, by dsimp only; omega⟩

/-- Positions follow offsets, so ranges follow spans, whatever the bytes are. In the bytes of a text, two
places between characters have different positions; the column of a place counts the characters behind the
last line feed before it. -/
theorem position_follows_offset (source : Bytes) :
    (∀ a b, a ≤ b → positionOf source a ≤ positionOf source b) ∧
      (∀ n : Node, n.start ≤ n.stop → (n.range source).start ≤ (n.range source).stop) ∧
      (∀ outer inner : Node, outer.start ≤ inner.start → inner.start ≤ inner.stop →
        inner.stop ≤ outer.stop →
          (outer.range source).contains (inner.range source).start = true ∧
            (outer.range source).contains (inner.range source).stop = true) ∧
      (∀ before between after : List Char,
        source = Utf8.encode (String.ofList (before ++ between ++ after)) → between ≠ [] →
          positionOf source (Utf8.encode (String.ofList before)).length <
            positionOf source (Utf8.encode (String.ofList (before ++ between))).length) ∧
      (∀ front line after : List Char,
        source = Utf8.encode (String.ofList (front ++ line ++ after)) → LineStart '\n' front →
          '\n' ∉ line →
            positionOf source (Utf8.encode (String.ofList (front ++ line))).length =
              ⟨front.count '\n', line.length⟩) := by
  refine ⟨fun a b => positionOf_mono source, fun n => positionOf_mono source, ?_, ?_, ?_⟩
  · intro outer inner first span last
    rw [Range.contains_iff, Range.contains_iff]
    refine ⟨⟨?_, ?_⟩, ?_, ?_⟩
    · exact positionOf_mono source first
    · exact positionOf_mono source (Nat.le_trans span last)
    · exact positionOf_mono source (Nat.le_trans first span)
    · exact positionOf_mono source last
  · rintro before between after rfl some
    exact positionOf_encode_lt before after some
  · rintro front line after rfl start plain
    exact positionOf_encode after start plain

/-- A smile of four bytes is one column wide, and a node inside of another has its range there. -/
theorem position_follows_offset_smile :
    LineStart '\n' ['é', '\n'] ∧ '\n' ∉ ['🙂', 'k'] ∧
      positionOf (Utf8.encode "é\n🙂k;") 8 = ⟨1, 2⟩ ∧
      positionOf (Utf8.encode "é\n🙂k;") 3 < positionOf (Utf8.encode "é\n🙂k;") 7 ∧
      (Node.range (Utf8.encode "é\n🙂k;") (.mk ⟨.expressionStatement, 3, 9, none, true, false⟩ [])).contains
        (Node.range (Utf8.encode "é\n🙂k;") (.mk ⟨.identifier, 7, 8, none, true, false⟩ [])).stop = true := by
  have start : LineStart '\n' ['é', '\n'] := .inr ⟨['é'], rfl⟩
  have plain : '\n' ∉ ['🙂', 'k'] := by decide
  have length (cs : List Char) (n : Nat) (h : (cs.flatMap String.utf8EncodeChar).length = n) :
      (Utf8.encode (String.ofList cs)).length = n := by
    rw [Utf8.encode_ofList, h]
  have whole := position_follows_offset (Utf8.encode "é\n🙂k;")
  have column := whole.2.2.2.2 ['é', '\n'] ['🙂', 'k'] [';'] rfl start plain
  have later := whole.2.2.2.1 ['é', '\n'] ['🙂'] ['k', ';'] rfl (by decide)
  rw [length _ 8 rfl] at column
  rw [length _ 3 rfl, length _ 7 rfl] at later
  refine ⟨start, plain, column, later, ?_⟩
  exact (whole.2.2.1 (.mk ⟨.expressionStatement, 3, 9, none, true, false⟩ [])
    (.mk ⟨.identifier, 7, 8, none, true, false⟩ []) (by decide) (by decide) (by decide)).2

end Code

end ContainerKeys
