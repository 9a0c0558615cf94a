import ContainerKeys.Code.Source
import Mathlib.Data.List.Basic
import Mathlib.Tactic.SplitIfs

/-!
# Positions follow offsets

The position of a byte offset never goes back when the offset grows, whatever the bytes are. Rows only
count line feeds. Columns count pieces of the line so far, and a piece that the end of the bytes breaks
off is still one piece when more bytes come: it may grow, but it does not vanish.

* `Utf8.length_pieces_le_append` — more bytes never make fewer pieces.
* `Code.positionOf_mono` — positions are monotone in the offset.
-/

namespace ContainerKeys

/-- A position is inside a range just if it lies between its ends. -/
theorem Range.contains_iff {r : Range} {p : Position} :
    r.contains p = true ↔ r.start ≤ p ∧ p ≤ r.stop := by
  unfold Range.contains
  rw [Position.le_iff, Position.le_iff]
  split_ifs with lines first last
  · simp only [Bool.or_eq_true, decide_eq_true_eq] at lines
    simp only [false_iff]
    omega
  · simp only [Bool.and_eq_true, decide_eq_true_eq] at first
    simp only [false_iff]
    omega
  · simp only [Bool.and_eq_true, decide_eq_true_eq] at last
    simp only [false_iff]
    omega
  · simp only [Bool.or_eq_true, decide_eq_true_eq] at lines
    simp only [Bool.and_eq_true, decide_eq_true_eq] at first last
    simp only [true_iff]
    omega

/-! ## Pieces -/

namespace Utf8

theorem width_follow_le (first : UInt8) (more low high bits width : Nat) (bytes : Bytes) :
    (follow first more low high bits width bytes).width ≤ width + bytes.length := by
  fun_induction follow first more low high bits width bytes with
  | case1 => simp [Piece.width]
  | case2 => simp [Piece.width]
  | case3 low high bits width more b rest _ ih =>
    rw [List.length_cons]
    omega
  | case4 => simp [Piece.width]

/-- More bytes leave a piece as wide as it is, unless it reaches up to them. -/
theorem width_follow_append (first : UInt8) (more low high bits width : Nat)
    (bytes after : Bytes) :
    (follow first more low high bits width (bytes ++ after)).width =
        (follow first more low high bits width bytes).width ∨
      (follow first more low high bits width bytes).width = width + bytes.length := by
  fun_induction follow first more low high bits width bytes with
  | case1 => left; simp [follow, Piece.width]
  | case2 => right; simp [Piece.width]
  | case3 low high bits width more b rest hb ih =>
    rw [List.cons_append, follow, if_pos hb, List.length_cons]
    omega
  | case4 low high bits width more b rest hb =>
    left
    rw [List.cons_append, follow, if_neg hb]

theorem width_piece_le (b : UInt8) (rest : Bytes) : (piece b rest).width ≤ 1 + rest.length := by
  unfold piece
  split
  · simp [Piece.width]
  · exact width_follow_le ..

theorem width_piece_append (b : UInt8) (rest after : Bytes) :
    (piece b (rest ++ after)).width = (piece b rest).width ∨
      (piece b rest).width = 1 + rest.length := by
  unfold piece
  split
  · left; rfl
  · exact width_follow_append ..

theorem pieces_cons (b : UInt8) (rest : Bytes) :
    pieces (b :: rest) = piece b rest :: pieces (rest.drop ((piece b rest).width - 1)) := by
  rw [pieces]

/-- More bytes never make fewer pieces. -/
theorem length_pieces_le_append (bytes after : Bytes) :
    (pieces bytes).length ≤ (pieces (bytes ++ after)).length := by
  fun_induction pieces bytes with
  | case1 => simp
  | case2 b rest p ih =>
    rw [List.cons_append, pieces_cons, List.length_cons, List.length_cons]
    rcases width_piece_append b rest after with same | whole
    -- the first piece is the same, and so is what is left behind it
    · have fits : (piece b rest).width - 1 ≤ rest.length := by
        have := width_piece_le b rest
        omega
      rw [same, List.drop_append_of_le_length fits]
      exact Nat.succ_le_succ ih
    -- the first piece is all there is
    · have nothing : rest.drop ((piece b rest).width - 1) = [] := by
        rw [whole, Nat.add_sub_cancel_left, List.drop_length]
      show (pieces (rest.drop ((piece b rest).width - 1))).length + 1 ≤ _
      rw [nothing, pieces, List.length_nil]
      omega

theorem length_decodeLossy (bytes : Bytes) : (decodeLossy bytes).length = (pieces bytes).length :=
  List.length_map _

end Utf8

/-! ## Rows and columns -/

namespace Code

theorem rowOf_mono (source : Bytes) {a b : Nat} (h : a ≤ b) : rowOf source a ≤ rowOf source b :=
  ((List.take_prefix_take_left h).sublist).count_le lineFeed

/-- An offset on the same row only adds bytes to the line before it. -/
theorem lineBefore_of_row_eq (source : Bytes) {a b : Nat} (h : a ≤ b)
    (row : rowOf source a = rowOf source b) :
    ∃ between, lineBefore source b = lineBefore source a ++ between := by
  obtain ⟨between, split⟩ : source.take a <+: source.take b := List.take_prefix_take_left h
  refine ⟨between, ?_⟩
  have noFeed : lineFeed ∉ between := by
    unfold rowOf at row
    rw [← split, List.count_append] at row
    exact List.count_eq_zero.mp (by omega)
  have all : ∀ c ∈ between.reverse, decide (c ≠ lineFeed) = true := by
    intro c hc
    exact decide_eq_true fun e => noFeed (e ▸ List.mem_reverse.mp hc)
  unfold lineBefore
  rw [← split, List.reverse_append, List.takeWhile_append_of_pos all, List.reverse_append,
    List.reverse_reverse]

/-- The position of an offset never goes back when the offset grows. -/
theorem positionOf_mono (source : Bytes) {a b : Nat} (h : a ≤ b) :
    positionOf source a ≤ positionOf source b := by
  rw [Position.le_iff]
  show (rowOf source a : Int) < rowOf source b ∨
    (rowOf source a : Int) = rowOf source b ∧
      ((Utf8.decodeLossy (lineBefore source a)).length : Int) ≤
        (Utf8.decodeLossy (lineBefore source b)).length
  have rows := rowOf_mono source h
  by_cases row : rowOf source a = rowOf source b
  -- on one row the line only grows, and more bytes never make fewer pieces
  · obtain ⟨between, line⟩ := lineBefore_of_row_eq source h row
    have columns := Utf8.length_pieces_le_append (lineBefore source a) between
    rw [line, Utf8.length_decodeLossy, Utf8.length_decodeLossy]
    omega
  · omega

end Code

end ContainerKeys
