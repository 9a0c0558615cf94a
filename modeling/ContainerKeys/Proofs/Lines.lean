import ContainerKeys.Proofs.Answers
import ContainerKeys.Proofs.Columns
import ContainerKeys.Proofs.Cursor.Strings
import ContainerKeys.Proofs.Usages

/-!
# Rows and lines

Ranges count rows, which end at line feeds only. The text of a cursor's line is taken from a list of lines,
and a line also ends at a carriage return without a line feed. So rows and lines are numbered alike as
long as every carriage return stands right before a line feed, and a lone one on a row cuts the row short.

* `Text.exists_lines_append` — a line goes on up to the next line end.
* `Code.drop_lines_rows` — rows without lone carriage returns are lines.
* `Code.Node.cut_line_iff` — a node is found on its line just if no carriage return stands on its row
  before its end.
* `usage_text_on_line_iff` — so it is for the usages of every file.
-/

namespace ContainerKeys

/-! ## Lines of a text -/

namespace Text

/-- No line ends in the text. -/
def LineFree (cs : List Char) : Prop :=
  '\n' ∉ cs ∧ '\r' ∉ cs

theorem lineFree_cons_iff {c : Char} {cs : List Char} :
    LineFree (c :: cs) ↔ (c ≠ '\n' ∧ c ≠ '\r') ∧ LineFree cs := by
  unfold LineFree
  rw [List.mem_cons, List.mem_cons, not_or, not_or]
  constructor
  · rintro ⟨⟨feed, feeds⟩, ret, returns⟩
    exact ⟨⟨Ne.symm feed, Ne.symm ret⟩, feeds, returns⟩
  · rintro ⟨⟨feed, ret⟩, feeds, returns⟩
    exact ⟨⟨Ne.symm feed, feeds⟩, Ne.symm ret, returns⟩

theorem lines_feed (rest : List Char) : lines ('\n' :: rest) = [] :: lines rest := by
  simp [lines, linesBy]

theorem lines_return_feed (rest : List Char) : lines ('\r' :: '\n' :: rest) = [] :: lines rest := by
  simp [lines, linesBy]

/-- A carriage return ends a line, whatever follows it. -/
theorem exists_lines_return (rest : List Char) : ∃ later, lines ('\r' :: rest) = [] :: later := by
  unfold lines
  rw [linesBy.eq_def]
  split
  · rename_i h
    cases h
  · exact ⟨_, rfl⟩
  · rename_i h
    cases h
    exact ⟨_, if_pos (by decide)⟩

theorem lines_cons {c : Char} (feed : c ≠ '\n') (ret : c ≠ '\r') (rest : List Char) :
    lines (c :: rest) = (c :: (lines rest).head?.getD []) :: (lines rest).tail := by
  have inside : ¬ (decide (c = '\n') || decide (c = '\r')) = true := by simp [feed, ret]
  rw [lines, linesBy, if_neg inside, ← lines]
  · cases lines rest with
    | nil => rfl
    | cons line more => rfl
  · intro _ h
    exact absurd h ret

/-- What stands before a line goes in front of it. -/
theorem lines_append_of_cons {cs rest line : List Char} {later : List (List Char)} (free : LineFree cs)
    (behind : lines rest = line :: later) : lines (cs ++ rest) = (cs ++ line) :: later := by
  induction cs with
  | nil => exact behind
  | cons c cs ih =>
    rcases lineFree_cons_iff.mp free with ⟨⟨feed, ret⟩, free⟩
    rw [List.cons_append, lines_cons feed ret, ih free, List.head?_cons, Option.getD_some, List.tail_cons,
      List.cons_append]

/-- A line that has started goes on up to the next line end. -/
theorem exists_lines_append {cs : List Char} (free : LineFree cs) (some : cs ≠ []) (rest : List Char) :
    ∃ more later, lines (cs ++ rest) = (cs ++ more) :: later := by
  induction cs with
  | nil => exact absurd rfl some
  | cons c cs ih =>
    rcases lineFree_cons_iff.mp free with ⟨⟨feed, ret⟩, free⟩
    rw [List.cons_append, lines_cons feed ret]
    by_cases last : cs = []
    · rw [last, List.nil_append]
      cases lines rest with
      | nil => exact ⟨[], [], rfl⟩
      | cons line later => exact ⟨line, later, rfl⟩
    · rcases ih free last with ⟨more, later, found⟩
      rw [found]
      exact ⟨more, later, rfl⟩

end Text

/-! ## Rows of bytes -/

namespace Code

/-- The carriage return. -/
def carriageReturn : UInt8 := 13

/-- Every carriage return stands right before a line feed. -/
def ReturnsPaired (bytes : Bytes) : Prop :=
  ∀ before after, bytes = before ++ carriageReturn :: after → after.head? = some lineFeed

theorem returnsPaired_nil : ReturnsPaired [] := by
  intro before after split
  simp at split

theorem returnsPaired_cons_iff {b : UInt8} {rest : Bytes} :
    ReturnsPaired (b :: rest) ↔ (b = carriageReturn → rest.head? = some lineFeed) ∧ ReturnsPaired rest := by
  constructor
  · intro paired
    refine ⟨?_, ?_⟩
    · rintro rfl
      exact paired [] rest rfl
    · intro before after split
      exact paired (b :: before) after (by rw [split, List.cons_append])
  · rintro ⟨here, paired⟩ before after split
    cases before with
    | nil =>
      cases split
      exact here rfl
    | cons c before =>
      cases split
      exact paired before after rfl

instance decidableReturnsPaired : (bytes : Bytes) → Decidable (ReturnsPaired bytes)
  | [] => isTrue returnsPaired_nil
  | _ :: rest =>
    have := decidableReturnsPaired rest
    decidable_of_iff' _ returnsPaired_cons_iff

/-- Where whole rows and a line hold no lone carriage return, the rows hold none and the line none at all. -/
theorem returnsPaired_of_append {rows line : Bytes} (whole : LineStart lineFeed rows)
    (plain : lineFeed ∉ line) (paired : ReturnsPaired (rows ++ line)) :
    ReturnsPaired rows ∧ carriageReturn ∉ line := by
  constructor
  · intro before after split
    have next := paired before (after ++ line) (by rw [split, List.append_assoc, List.cons_append])
    cases after with
    | cons b after => exact next
    | nil =>
      -- the last byte of the rows is a line feed
      rcases whole with rfl | ⟨earlier, rfl⟩
      · simp at split
      · cases (List.append_inj' split rfl).2
  · intro ret
    rcases List.append_of_mem ret with ⟨before, after, rfl⟩
    have next := paired (rows ++ before) after (List.append_assoc ..).symm
    exact plain (List.mem_append_right _ (List.mem_cons_of_mem _ (List.mem_of_head? next)))

/-- The first of several rows holds a carriage return at its end at most. -/
theorem exists_row_of_paired {row rest : Bytes} (paired : ReturnsPaired (row ++ lineFeed :: rest))
    (plain : lineFeed ∉ row) :
    ReturnsPaired rest ∧ ∃ start, carriageReturn ∉ start ∧ (row = start ∨ row = start ++ [carriageReturn]) := by
  constructor
  · intro before after split
    apply paired (row ++ lineFeed :: before) after
    rw [split, List.append_assoc, List.cons_append]
  · by_cases ret : carriageReturn ∈ row
    · rcases List.eq_append_cons_of_mem ret with ⟨start, after, rfl, none⟩
      refine ⟨start, none, .inr ?_⟩
      have next := paired start (after ++ lineFeed :: rest) (by rw [List.append_assoc, List.cons_append])
      -- the line feed behind it is the end of the row
      cases after with
      | nil => rfl
      | cons b after =>
        cases next
        exact absurd (by simp) plain
    · exact ⟨row, ret, .inl rfl⟩

theorem notMem_decodeLossy {bytes : Bytes} {b : UInt8} {c : Char} (same : c.toNat = b.toNat)
    (ascii : c.toNat < 0x80) (h : b ∉ bytes) : c ∉ Utf8.decodeLossy bytes := by
  intro member
  rcases Utf8.exists_byte_of_mem_decodeLossy member ascii with ⟨d, found, value⟩
  have eq : d = b := UInt8.toNat.inj (value.trans same)
  exact h (eq ▸ found)

theorem lineFree_decodeLossy {bytes : Bytes} (feed : lineFeed ∉ bytes) (ret : carriageReturn ∉ bytes) :
    Text.LineFree (Utf8.decodeLossy bytes) :=
  ⟨notMem_decodeLossy rfl (by decide) feed, notMem_decodeLossy rfl (by decide) ret⟩

theorem decodeLossy_append_ascii (bytes : Bytes) {b : UInt8} (ascii : b.toNat < 0x80) (rest : Bytes) :
    Utf8.decodeLossy (bytes ++ b :: rest) =
      Utf8.decodeLossy bytes ++ Char.ofNat b.toNat :: Utf8.decodeLossy rest := by
  rw [Utf8.decodeLossy_append (Utf8.apart_cons_of_lt ascii rest), Utf8.decodeLossy_cons,
    Utf8.piece_of_lt ascii]
  rfl

theorem decodeLossy_append_feed (bytes rest : Bytes) :
    Utf8.decodeLossy (bytes ++ lineFeed :: rest) = Utf8.decodeLossy bytes ++ '\n' :: Utf8.decodeLossy rest :=
  decodeLossy_append_ascii bytes (by decide) rest

theorem decodeLossy_append_return (bytes rest : Bytes) :
    Utf8.decodeLossy (bytes ++ carriageReturn :: rest) =
      Utf8.decodeLossy bytes ++ '\r' :: Utf8.decodeLossy rest :=
  decodeLossy_append_ascii bytes (by decide) rest

/-- A row that holds no lone carriage return is the next line. -/
theorem lines_row {row rest : Bytes} (paired : ReturnsPaired (row ++ lineFeed :: rest))
    (plain : lineFeed ∉ row) (after : Bytes) :
    ∃ line, Text.lines (Utf8.decodeLossy (row ++ lineFeed :: after)) =
      line :: Text.lines (Utf8.decodeLossy after) := by
  rcases exists_row_of_paired paired plain with ⟨-, start, noReturn, rfl | rfl⟩
  · refine ⟨Utf8.decodeLossy row, ?_⟩
    rw [decodeLossy_append_feed,
      Text.lines_append_of_cons (lineFree_decodeLossy plain noReturn) (Text.lines_feed _), List.append_nil]
  · refine ⟨Utf8.decodeLossy start, ?_⟩
    have noFeed : lineFeed ∉ start := fun h => plain (List.mem_append_left _ h)
    have feed : Utf8.decodeLossy (lineFeed :: after) = '\n' :: Utf8.decodeLossy after := by
      rw [Utf8.decodeLossy_cons, Utf8.piece_of_lt (by decide)]
      rfl
    rw [List.append_assoc, List.singleton_append, decodeLossy_append_return, feed,
      Text.lines_append_of_cons (lineFree_decodeLossy noFeed noReturn) (Text.lines_return_feed _),
      List.append_nil]

/-- Whole rows are made of a first row and the others. -/
theorem rows_induction {motive : Bytes → Prop} (nil : motive [])
    (row : ∀ row rest, lineFeed ∉ row → LineStart lineFeed rest → motive rest →
      motive (row ++ lineFeed :: rest))
    {rows : Bytes} (whole : LineStart lineFeed rows) : motive rows := by
  induction size : rows.length using Nat.strongRecOn generalizing rows with
  | ind n ih =>
    rcases whole with rfl | ⟨earlier, ends⟩
    · exact nil
    · have feed : lineFeed ∈ rows := by simp [ends]
      rcases List.eq_append_cons_of_mem feed with ⟨first, rest, rfl, plain⟩
      -- what is behind the first row is empty, or ends as the whole does
      have start : LineStart lineFeed rest := by
        rcases List.eq_nil_or_concat' rest with rfl | ⟨front, last, rfl⟩
        · exact .inl rfl
        · right
          rw [← List.cons_append, ← List.append_assoc] at ends
          rcases List.append_inj' ends rfl with ⟨-, same⟩
          exact ⟨front, by rw [same]⟩
      exact row first rest plain start (ih rest.length (by simp [← size]; omega) start rfl)

/-- Behind whole rows without lone carriage returns as many lines are over. -/
theorem drop_lines_rows {rows : Bytes} (whole : LineStart lineFeed rows) (paired : ReturnsPaired rows)
    (after : Bytes) :
    (Text.lines (Utf8.decodeLossy (rows ++ after))).drop (rows.count lineFeed) =
      Text.lines (Utf8.decodeLossy after) := by
  revert paired
  refine rows_induction (motive := fun rows => ReturnsPaired rows →
    (Text.lines (Utf8.decodeLossy (rows ++ after))).drop (rows.count lineFeed) =
      Text.lines (Utf8.decodeLossy after)) ?_ ?_ whole
  · intro _
    rfl
  · intro row rest plain _ ih paired
    rcases lines_row paired plain (rest ++ after) with ⟨line, found⟩
    rw [List.append_assoc, List.cons_append, found, List.count_append, List.count_eq_zero.mpr plain,
      List.count_cons_self, Nat.zero_add, List.drop_succ_cons]
    exact ih (exists_row_of_paired paired plain).1

/-- A carriage return on a row makes for a shorter line. -/
theorem exists_lines_cut_short {row : Bytes} (plain : lineFeed ∉ row) (ret : carriageReturn ∈ row)
    (rest : Bytes) :
    ∃ line later, Text.lines (Utf8.decodeLossy (row ++ rest)) = line :: later ∧
      line.length < (Utf8.decodeLossy row).length := by
  rcases List.eq_append_cons_of_mem ret with ⟨start, after, rfl, none⟩
  have noFeed : lineFeed ∉ start := fun h => plain (List.mem_append_left _ h)
  rcases Text.exists_lines_return (Utf8.decodeLossy (after ++ rest)) with ⟨later, ended⟩
  refine ⟨Utf8.decodeLossy start, later, ?_, ?_⟩
  · rw [List.append_assoc, List.cons_append, decodeLossy_append_return,
      Text.lines_append_of_cons (lineFree_decodeLossy noFeed none) ended, List.append_nil]
  · rw [decodeLossy_append_return, List.length_append, List.length_cons]
    omega

/-! ## Nodes on a row -/

/-- The bytes of the rows that end before an offset. -/
def rowsBefore (source : Bytes) (offset : Nat) : Bytes :=
  ((source.take offset).reverse.dropWhile (· ≠ lineFeed)).reverse

theorem rowsBefore_append_lineBefore (source : Bytes) (offset : Nat) :
    rowsBefore source offset ++ lineBefore source offset = source.take offset := by
  unfold rowsBefore lineBefore
  rw [← List.reverse_append, List.takeWhile_append_dropWhile, List.reverse_reverse]

/-- Before an offset stand whole rows and then a line without its end. -/
theorem lineStart_rowsBefore (source : Bytes) (offset : Nat) :
    LineStart lineFeed (rowsBefore source offset) ∧ lineFeed ∉ lineBefore source offset := by
  rcases exists_lineStart lineFeed (source.take offset) with ⟨front, line, split, start, plain⟩
  have last := lineBefore_of_split split start plain
  have rows : rowsBefore source offset = front := by
    have whole := rowsBefore_append_lineBefore source offset
    rw [last, split] at whole
    exact List.append_cancel_right whole
  rw [rows, last]
  exact ⟨start, plain⟩

theorem rowOf_eq_count (source : Bytes) (offset : Nat) :
    rowOf source offset = (rowsBefore source offset).count lineFeed := by
  rw [rowOf, ← rowsBefore_append_lineBefore, List.count_append,
    List.count_eq_zero.mpr (lineStart_rowsBefore source offset).2, Nat.add_zero]

namespace Node

variable {source : Bytes} {n : Node} {text : List Char}

theorem take_stop (source : Bytes) (span : n.start ≤ n.stop) :
    source.take n.stop = source.take n.start ++ n.bytes source := by
  rw [bytes, ← List.take_add, Nat.add_sub_cancel' span]

/-- The line before the end of a node on one row is the line before its start and the node itself. -/
theorem lineBefore_stop (span : n.start ≤ n.stop) (row : rowOf source n.start = rowOf source n.stop) :
    lineBefore source n.stop = lineBefore source n.start ++ n.bytes source := by
  rcases lineStart_rowsBefore source n.start with ⟨start, plain⟩
  have noFeed : lineFeed ∉ n.bytes source := by
    unfold rowOf at row
    rw [take_stop source span, List.count_append] at row
    exact List.count_eq_zero.mp (by omega)
  have split : source.take n.stop =
      rowsBefore source n.start ++ (lineBefore source n.start ++ n.bytes source) := by
    rw [take_stop source span, ← List.append_assoc, rowsBefore_append_lineBefore]
  apply lineBefore_of_split split start
  rw [List.mem_append]
  exact not_or.mpr ⟨plain, noFeed⟩

/-- Behind the rows before a node stand the line before its end and the rest. -/
theorem source_eq_rows (span : n.start ≤ n.stop) (row : rowOf source n.start = rowOf source n.stop) :
    source = rowsBefore source n.start ++ (lineBefore source n.stop ++ source.drop n.stop) := by
  rw [lineBefore_stop span row, ← List.append_assoc, ← List.append_assoc, rowsBefore_append_lineBefore,
    ← take_stop source span, List.take_append_drop]

theorem bytes_ne_nil (span : n.start < n.stop) (inside : n.stop ≤ source.length) : n.bytes source ≠ [] := by
  intro none
  have size := congrArg List.length none
  rw [bytes, List.length_take, List.length_drop, List.length_nil] at size
  omega

/-- A node that is a text is read apart from what stands around it. -/
theorem decodeLossy_around (some : n.bytes source ≠ []) (spelled : n.text source = .ok text)
    (line rest : Bytes) :
    Utf8.decodeLossy (line ++ (n.bytes source ++ rest)) =
      Utf8.decodeLossy line ++ (text ++ Utf8.decodeLossy rest) := by
  rw [Utf8.decodeLossy_append (Utf8.apart_append_of_decode spelled some rest),
    Utf8.decodeLossy_append_of_decode spelled]

theorem text_ne_nil (some : n.bytes source ≠ []) (spelled : n.text source = .ok text) : text ≠ [] := by
  rw [← Utf8.decodeLossy_of_decode spelled]
  cases bytes : n.bytes source with
  | nil => exact absurd bytes some
  | cons b rest =>
    rw [Utf8.decodeLossy_cons]
    exact List.cons_ne_nil _ _

/-- The lines from the row of a node on start with the bytes before its end. -/
theorem drop_lines (span : n.start ≤ n.stop) (row : rowOf source n.start = rowOf source n.stop)
    (paired : ReturnsPaired (rowsBefore source n.start)) :
    (Text.lines (Utf8.decodeLossy source)).drop (rowOf source n.start) =
      Text.lines (Utf8.decodeLossy (lineBefore source n.stop ++ source.drop n.stop)) := by
  have dropped := drop_lines_rows (lineStart_rowsBefore source n.start).1 paired
    (lineBefore source n.stop ++ source.drop n.stop)
  rwa [← source_eq_rows span row, ← rowOf_eq_count] at dropped

/-- A node on one row is cut out of the line of that number just if no carriage return stands on the row
before its end, provided that the rows before it hold no lone ones. -/
theorem cut_line_iff (span : n.start < n.stop) (inside : n.stop ≤ source.length)
    (spelled : n.text source = .ok text) (row : rowOf source n.start = rowOf source n.stop)
    (paired : ReturnsPaired (rowsBefore source n.start)) :
    (∃ line, ((Text.lines (Utf8.decodeLossy source)).drop (rowOf source n.start)).head? = some line ∧
      Cursor.cut line ((Utf8.decodeLossy (lineBefore source n.start)).length,
        (Utf8.decodeLossy (lineBefore source n.stop)).length) = text) ↔
      carriageReturn ∉ lineBefore source n.stop := by
  have some := bytes_ne_nil span inside
  have spoken : 0 < text.length := List.length_pos_iff.mpr (text_ne_nil some spelled)
  have plain := (lineStart_rowsBefore source n.stop).2
  have around := decodeLossy_around some spelled (lineBefore source n.start)
  simp only [← List.append_assoc, ← lineBefore_stop (Nat.le_of_lt span) row] at around
  have upTo : Utf8.decodeLossy (lineBefore source n.stop) =
      Utf8.decodeLossy (lineBefore source n.start) ++ text := by
    have alone := around []
    rwa [List.append_nil, Utf8.decodeLossy_nil, List.append_nil] at alone
  rw [drop_lines (Nat.le_of_lt span) row paired]
  constructor
  -- a carriage return leaves too few characters on the line
  · rintro ⟨line, found, whole⟩ ret
    rcases exists_lines_cut_short plain ret (source.drop n.stop) with ⟨first, later, lines, short⟩
    rw [lines, List.head?_cons, Option.some.injEq] at found
    subst found
    have size := congrArg List.length whole
    rw [upTo, List.length_append] at short size
    rw [Cursor.cut, List.length_take, List.length_drop] at size
    dsimp only at size
    omega
  · intro none
    have free := lineFree_decodeLossy plain none
    rw [upTo] at free
    rw [around]
    rcases Text.exists_lines_append free (by simp [text_ne_nil some spelled])
      (Utf8.decodeLossy (source.drop n.stop)) with ⟨more, later, lines⟩
    refine ⟨_, by rw [lines]; rfl, ?_⟩
    rw [upTo, List.length_append, List.append_assoc]
    exact Cursor.cut_append _ text more

end Node

/-- A tree fits its source: it is laid out in order, ends within the bytes, and every node of a kind that
spells out keys takes up some of them. -/
structure Node.LaidOut (source : Bytes) (root : Node) : Prop where
  placed : root.Placed
  inside : root.stop ≤ source.length
  spelled : ∀ n : Node, n.PartOf root → Declaration.SpellsKey n → n.start < n.stop

end Code

/-! ## Usages on their lines -/

theorem outcome_readLine {files : FileTree} {file : Path} {source : Bytes} (proper : '\x00' ∉ file.toList)
    (read : files.read file = .ok source) (row : Nat) :
    (readLine files file row).outcome =
      .ok (((Text.lines (Utf8.decodeLossy source)).drop row).head?.map String.ofList) := by
  unfold readLine
  rw [Attempt.outcome_bind, Attempt.outcome_ofExcept, PathFault.checkNull_eq_ok proper, read]
  dsimp only
  rw [if_neg (Int.not_lt.mpr (Int.natCast_nonneg row)), Int.toNat_natCast]
  rfl

open Code

/-- The text stands on the line of the usage, at its columns. -/
def Usage.ReadsOnLine (u : Usage) (files : FileTree) (text : List Char) : Prop :=
  ∃ line, (readLine files u.file u.range.start.line).outcome = .ok (some line) ∧
    Cursor.cut line.toList (u.range.start.character.toNat, u.range.stop.character.toNat) = text

/-- A usage on one row is read on its line just if no carriage return stands on the row before its end. -/
theorem Usage.readsOnLine_iff {files : FileTree} {source : Bytes} {u : Usage} {n : Node} {text : List Char}
    (proper : '\x00' ∉ u.file.toList) (read : files.read u.file = .ok source)
    (range : u.range = n.range source) (span : n.start < n.stop) (inside : n.stop ≤ source.length)
    (spelled : n.text source = .ok text) (row : rowOf source n.start = rowOf source n.stop)
    (paired : ReturnsPaired (rowsBefore source n.start)) :
    u.ReadsOnLine files text ↔ carriageReturn ∉ lineBefore source n.stop := by
  rw [← Node.cut_line_iff span inside spelled row paired, Usage.ReadsOnLine, range]
  show (∃ line, (readLine files u.file (rowOf source n.start : Nat)).outcome = .ok (some line) ∧ _) ↔ _
  rw [outcome_readLine proper read]
  constructor
  · rintro ⟨line, found, whole⟩
    rcases Option.map_eq_some_iff.mp (Except.ok.inj found) with ⟨cs, first, rfl⟩
    rw [String.toList_ofList] at whole
    exact ⟨cs, first, whole⟩
  · rintro ⟨cs, first, whole⟩
    refine ⟨String.ofList cs, by rw [first]; rfl, ?_⟩
    rw [String.toList_ofList]
    exact whole

/-- Every usage of a file that is indexed without a fault is spelled out by a node of its tree. If it is on
one row, its node is read on the line of that number at its columns, as long as no lone carriage return
stands before the end of the node. If one does, on that row and on none before, something else is read. -/
theorem usage_text_on_line_iff {w : Workspace} {containers : List String} {file : Path} {source : Bytes}
    {index : FileIndex} (laidOut : ∀ root, parse w.parser file source = .ok root → root.LaidOut source)
    (proper : '\x00' ∉ file.toList) (read : w.files.read file = .ok source)
    (indexed : (FileIndex.ofSource w containers file source).outcome = .ok index)
    (sound : index.fault = none) {u : Usage} (used : u ∈ index.usages) :
    ∃ root, parse w.parser file source = .ok root ∧ (∃ n : Node, n.PartOf root ∧ u.SpelledBy source n) ∧
      ∀ n : Node, n.PartOf root → u.SpelledBy source n → u.range.start.line = u.range.stop.line →
        ∃ text, n.text source = .ok text ∧
          (ReturnsPaired (source.take n.stop) → u.ReadsOnLine w.files text) ∧
          (ReturnsPaired (rowsBefore source n.start) →
            (u.ReadsOnLine w.files text ↔ carriageReturn ∉ lineBefore source n.stop)) := by
  rcases FileIndex.ofSource_eq_ok indexed sound with ⟨root, parsed, made⟩
  have fits : root.LaidOut source := laidOut root parsed
  rcases FileIndex.exists_node_of_usage made used with ⟨sameFile, node⟩
  change u.file = file at sameFile
  refine ⟨root, parsed, node, ?_⟩
  intro n part spelled oneRow
  have kind := Declaration.spellsKey_of_keyName spelled.1
  rcases Declaration.succeeds_keyName.mp ⟨_, spelled.1⟩ kind with ⟨text, decoded⟩
  -- the tree gives the span of the node, and the range of the usage its row
  have span := fits.spelled n part kind
  have inside : n.stop ≤ source.length := Nat.le_trans (part.placed fits.placed).2 fits.inside
  have row : rowOf source n.start = rowOf source n.stop := by
    rw [spelled.2] at oneRow
    exact Int.ofNat.inj oneRow
  have onLine : ReturnsPaired (rowsBefore source n.start) →
      (u.ReadsOnLine w.files text ↔ carriageReturn ∉ lineBefore source n.stop) :=
    Usage.readsOnLine_iff (sameFile ▸ proper) (sameFile ▸ read) spelled.2 span inside decoded row
  refine ⟨text, decoded, ?_, onLine⟩
  intro paired
  -- up to the end of the node there are the earlier rows and its own
  have split : source.take n.stop = rowsBefore source n.start ++ lineBefore source n.stop := by
    rw [Node.lineBefore_stop (Nat.le_of_lt span) row, ← List.append_assoc, rowsBefore_append_lineBefore,
      Node.take_stop source (Nat.le_of_lt span)]
  rw [split] at paired
  rcases returnsPaired_of_append (lineStart_rowsBefore source n.start).1
    (lineStart_rowsBefore source n.stop).2 paired with ⟨earlier, none⟩
  exact (onLine earlier).mpr none

/-! ## A file with a carriage return -/

/-- The tree of `container.resolve('k');` at an offset. -/
def resolveStatement (start : Nat) : Node :=
  .mk { kind := .expressionStatement, start := start, stop := start + 23 } [
    .mk { kind := .call, start := start, stop := start + 22 } [
      .mk { kind := .memberAccess, start := start, stop := start + 17, field := some .function } [
        .mk { kind := .identifier, start := start, stop := start + 9, field := some .object } [],
        .mk { kind := .propertyIdentifier, start := start + 10, stop := start + 17,
              field := some .property } []],
      .mk { kind := .other "arguments", start := start + 17, stop := start + 22,
            field := some .arguments } [
        .mk { kind := .string, start := start + 18, stop := start + 21 } [
          .mk { kind := .other "string_fragment", start := start + 19, stop := start + 20 } []]]]]

/-- Two calls with blanks between them. -/
def twoCalls (blanks : String) : Bytes :=
  Utf8.encode ("container.resolve('a');" ++ blanks ++ "container.resolve('b');")

/-- The tree of the two calls, the second of which is at an offset. -/
def twoCallsTree (second : Nat) : Node :=
  .mk { kind := .other "program", start := 0, stop := second + 23 } [resolveStatement 0, resolveStatement second]

/-- The usage of the second call at a position. -/
def secondUsage (row column : Int) : Usage :=
  ⟨"/w/a.js", ⟨⟨row, column⟩, ⟨row, column + 3⟩⟩, "b", .resolveCall⟩

/-- What the two calls contribute. -/
def twoCallsIndex (second : Usage) : FileIndex where
  file := "/w/a.js"
  usages := [⟨"/w/a.js", ⟨⟨0, 18⟩, ⟨0, 21⟩⟩, "a", .resolveCall⟩, second]

theorem span_resolveStatement {start : Nat} {n : Node} (part : n.PartOf (resolveStatement start)) :
    n.start < n.stop := by
  simp only [resolveStatement, Node.partOf_mk_iff, List.mem_cons, List.not_mem_nil, or_false,
    exists_eq_or_imp, exists_eq_left, false_and, exists_false] at part
  rcases part with rfl | rfl | (rfl | rfl | rfl) | rfl | rfl | rfl <;>
    simp [Node.start, Node.stop, Node.label]

theorem laidOut_twoCalls {source : Bytes} {second : Nat} (behind : 23 ≤ second)
    (inside : second + 23 ≤ source.length) : (twoCallsTree second).LaidOut source := by
  refine ⟨?_, inside, ?_⟩
  · simp [twoCallsTree, resolveStatement, Node.placed_mk_iff, Node.start, Node.stop, Node.label]
    omega
  · intro n part _
    rcases Node.partOf_mk_iff.mp part with rfl | ⟨statement, member, part⟩
    · exact Nat.succ_pos _
    · rcases List.mem_pair.mp member with rfl | rfl
      · exact span_resolveStatement part
      · exact span_resolveStatement part

/-- The string of the second call. -/
def secondString (second : Nat) : Node :=
  .mk { kind := .string, start := second + 18, stop := second + 21 } [
    .mk { kind := .other "string_fragment", start := second + 19, stop := second + 20 } []]

theorem partOf_secondString (second : Nat) : (secondString second).PartOf (twoCallsTree second) := by
  simp [secondString, twoCallsTree, resolveStatement, Node.partOf_mk_iff]

theorem text_secondString {source : Bytes} {second : Nat}
    (bytes : (secondString second).bytes source = [39, 98, 39]) :
    (secondString second).text source = .ok ['\x27', 'b', '\x27'] := by
  rw [Node.text, bytes]
  decide +kernel

theorem spelledBy_secondString {source : Bytes} {second : Nat} {row column : Int}
    (bytes : (secondString second).bytes source = [39, 98, 39])
    (range : (secondUsage row column).range = (secondString second).range source) :
    (secondUsage row column).SpelledBy source (secondString second) := by
  refine ⟨?_, range⟩
  show ((secondString second).text source >>= _) = _
  rw [text_secondString bytes]
  rfl

theorem bytes_behind_feed : (secondString 27).bytes (twoCalls "\r\n\u00a0") = [39, 98, 39] := by
  decide +kernel

theorem range_behind_feed : (secondUsage 1 19).range = (secondString 27).range (twoCalls "\r\n\u00a0") := by
  decide +kernel

theorem bytes_behind_return : (secondString 24).bytes (twoCalls "\r") = [39, 98, 39] := by
  decide +kernel

theorem range_behind_return : (secondUsage 0 42).range = (secondString 24).range (twoCalls "\r") := by
  decide +kernel

/-- Behind a carriage return and a line feed the second call is read on its line, at its columns. -/
theorem usage_text_on_line_iff_second :
    parse (oneFile (twoCalls "\r\n\u00a0") (twoCallsTree 27)).parser "/w/a.js" (twoCalls "\r\n\u00a0") =
      .ok (twoCallsTree 27) ∧
    (twoCallsTree 27).LaidOut (twoCalls "\r\n\u00a0") ∧
    (FileIndex.ofSource (oneFile (twoCalls "\r\n\u00a0") (twoCallsTree 27)) ["container"] "/w/a.js"
      (twoCalls "\r\n\u00a0")).outcome = .ok (twoCallsIndex (secondUsage 1 19)) ∧
    (secondUsage 1 19).SpelledBy (twoCalls "\r\n\u00a0") (secondString 27) ∧
    (secondUsage 1 19).ReadsOnLine (oneFile (twoCalls "\r\n\u00a0") (twoCallsTree 27)).files
      ['\x27', 'b', '\x27'] := by
  have size : (twoCalls "\r\n\u00a0").length = 50 := by decide +kernel
  have fits : (twoCallsTree 27).LaidOut (twoCalls "\r\n\u00a0") := laidOut_twoCalls (by decide) (by omega)
  have indexed : (FileIndex.ofSource (oneFile (twoCalls "\r\n\u00a0") (twoCallsTree 27)) ["container"] "/w/a.js"
      (twoCalls "\r\n\u00a0")).outcome = .ok (twoCallsIndex (secondUsage 1 19)) := by decide +kernel
  have spelled := spelledBy_secondString bytes_behind_feed range_behind_feed
  have paired : ReturnsPaired ((twoCalls "\r\n\u00a0").take 48) := by
    have whole : twoCalls "\r\n\u00a0" =
        "container.resolve('a');\r\n\u00a0container.resolve('b');".toList.flatMap String.utf8EncodeChar := by
      rw [← Utf8.encode_ofList, String.ofList_toList]
      rfl
    rw [whole]
    decide +kernel
  have known : parse (oneFile (twoCalls "\r\n\u00a0") (twoCallsTree 27)).parser "/w/a.js"
      (twoCalls "\r\n\u00a0") = .ok (twoCallsTree 27) := rfl
  have tree (root : Node) (parsed : parse (oneFile (twoCalls "\r\n\u00a0") (twoCallsTree 27)).parser "/w/a.js"
      (twoCalls "\r\n\u00a0") = .ok root) : root = twoCallsTree 27 :=
    Except.ok.inj (parsed.symm.trans known)
  rcases usage_text_on_line_iff (fun root parsed => tree root parsed ▸ fits) (by decide) (read_oneFile _ _)
    indexed rfl (List.mem_cons_of_mem _ List.mem_cons_self) with ⟨root, parsed, -, each⟩
  rcases each (secondString 27) (tree root parsed ▸ partOf_secondString 27) spelled rfl with
    ⟨text, decoded, onLine, -⟩
  cases decoded.symm.trans (text_secondString bytes_behind_feed)
  exact ⟨known, fits, indexed, spelled, onLine paired⟩

/-- Behind a carriage return alone the second call is on the first row, but not on the first line. -/
theorem usage_behind_return_off_line :
    parse (oneFile (twoCalls "\r") (twoCallsTree 24)).parser "/w/a.js" (twoCalls "\r") =
      .ok (twoCallsTree 24) ∧
    (twoCallsTree 24).LaidOut (twoCalls "\r") ∧
    (FileIndex.ofSource (oneFile (twoCalls "\r") (twoCallsTree 24)) ["container"] "/w/a.js"
      (twoCalls "\r")).outcome = .ok (twoCallsIndex (secondUsage 0 42)) ∧
    (secondUsage 0 42).SpelledBy (twoCalls "\r") (secondString 24) ∧
    (secondString 24).text (twoCalls "\r") = .ok ['\x27', 'b', '\x27'] ∧
    (readLine (oneFile (twoCalls "\r") (twoCallsTree 24)).files "/w/a.js" 0).outcome =
      .ok (some "container.resolve('a');") ∧
    ¬ (secondUsage 0 42).ReadsOnLine (oneFile (twoCalls "\r") (twoCallsTree 24)).files
      ['\x27', 'b', '\x27'] := by
  have size : (twoCalls "\r").length = 47 := by decide +kernel
  have fits : (twoCallsTree 24).LaidOut (twoCalls "\r") := laidOut_twoCalls (by decide) (by omega)
  have indexed : (FileIndex.ofSource (oneFile (twoCalls "\r") (twoCallsTree 24)) ["container"] "/w/a.js"
      (twoCalls "\r")).outcome = .ok (twoCallsIndex (secondUsage 0 42)) := by decide +kernel
  have spelled := spelledBy_secondString bytes_behind_return range_behind_return
  have text : Utf8.decodeLossy (twoCalls "\r") =
      "container.resolve('a');\rcontainer.resolve('b');".toList := Utf8.decodeLossy_encode _
  have line : (readLine (oneFile (twoCalls "\r") (twoCallsTree 24)).files "/w/a.js" 0).outcome =
      .ok (some "container.resolve('a');") := by
    rw [show (0 : Int) = (0 : Nat) from rfl, outcome_readLine (by decide) (read_oneFile _ _), text]
    rfl
  refine ⟨rfl, fits, indexed, spelled, text_secondString bytes_behind_return, line, ?_⟩
  rintro ⟨read, found, cut⟩
  cases line.symm.trans found
  exact absurd cut (by decide)

end ContainerKeys
