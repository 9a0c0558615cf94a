import ContainerKeys.Proofs.Cursor.Words

/-!
# Destructured parameters under the cursor

Completion reads the text up to the cursor, navigation the whole line. Both know the lists of destructured
parameters of constructors and functions, but navigation looks at the first closed list of each form only.

* `FirstList` — the first closed list of a form in a line, by its text alone.
* `isParameter_iff` — the parameters that are found are those named in that list.
* `keyAt_iff_of_detect` — where completion offers names, which words are found as keys.
-/

namespace ContainerKeys.Cursor

open Text (Pattern isBlank isNameChar)

/-! ## Lists in a line -/

/-- The opening of a parameter list up to its brace: a head of the given kind, which may depend on the text
ahead of it, and the parenthesis. -/
def Opening (Head : List Char → List Char → Prop) (ahead opening : List Char) : Prop :=
  ∃ head first second, Head ahead head ∧ Blanks first ∧ Blanks second ∧
    opening = head ++ (first ++ '(' :: second)

/-- The text ends with the opening of a parameter list and its brace. -/
def OpensList (Head : List Char → List Char → Prop) (text : List Char) : Prop :=
  ∃ ahead opening, Opening Head ahead opening ∧ text = ahead ++ (opening ++ ['\x7b'])

/-- Behind `before`, which opens it, stands a list that goes on to the next closing brace. -/
structure ListAt (Head : List Char → List Char → Prop) (line before list : List Char) : Prop where
  opens : OpensList Head before
  nonempty : list ≠ []
  unclosed : '\x7d' ∉ list
  closed : ∃ rest, line = before ++ (list ++ '\x7d' :: rest)

/-- No closed list of this kind starts earlier in the line. -/
structure FirstList (Head : List Char → List Char → Prop) (line before list : List Char) : Prop
    extends ListAt Head line before list where
  first : ∀ before' list', ListAt Head line before' list' → before.length ≤ before'.length

/-- A text ends before the first occurrence of a character that it does not hold. -/
theorem eq_of_append_cons_eq {first second rest rest' : List Char} {c : Char}
    (same : first ++ c :: rest = second ++ c :: rest') (notMem : c ∉ first) (notMem' : c ∉ second) :
    first = second :=
  List.append_inj_left same
    (Nat.le_antisymm (length_le_of_not_mem same.symm notMem) (length_le_of_not_mem same notMem'))

theorem FirstList.unique {Head : List Char → List Char → Prop} {line before list before' list' : List Char}
    (h : FirstList Head line before list) (h' : FirstList Head line before' list') :
    before = before' ∧ list = list' := by
  obtain ⟨rest, split⟩ := h.closed
  obtain ⟨rest', split'⟩ := h'.closed
  have length : before.length = before'.length :=
    Nat.le_antisymm (h.first _ _ h'.toListAt) (h'.first _ _ h.toListAt)
  obtain ⟨same, later⟩ := List.append_inj (split.symm.trans split') length
  exact ⟨same, eq_of_append_cons_eq later h.unclosed h'.unclosed⟩

/-! ## Forms of closed lists -/

theorem forall_isInsideBraces_iff {list : List Char} :
    (∀ c ∈ list, isInsideBraces c = true) ↔ '\x7d' ∉ list := by
  simp [isInsideBraces, List.forall_mem_ne']

/-- The form of a closed list with the given head; the group is the text between the braces. -/
def closedList (head : Pattern) : Pattern :=
  .seq [head, openList, .group (.some isInsideBraces), .text "\x7d"]

/-- A pattern for the heads of a kind. A head holds no opening brace. -/
structure ReadsHead (head : Pattern) (Head : List Char → List Char → Prop) : Prop where
  silent : head.Silent = true
  takes : ∀ ahead taken rest, head.Takes ahead.length taken rest [] ↔ Head ahead taken
  braceless : ∀ ahead taken, Head ahead taken → '\x7b' ∉ taken

theorem Blanks.braceless {text : List Char} (h : Blanks text) : '\x7b' ∉ text :=
  not_mem_of_forall h (by decide)

theorem braceless_of_name {text : List Char} (h : ∀ c ∈ text, isNameChar c = true) : '\x7b' ∉ text :=
  not_mem_of_forall h (by decide)

section

variable {head : Pattern} {Head : List Char → List Char → Prop} (reads : ReadsHead head Head)

include reads

theorem ReadsHead.opening_braceless {ahead opening : List Char} (h : Opening Head ahead opening) :
    '\x7b' ∉ opening := by
  obtain ⟨word, first, second, isHead, blankFirst, blankSecond, rfl⟩ := h
  simp [reads.braceless ahead word isHead, blankFirst.braceless, blankSecond.braceless]

theorem ReadsHead.takes_closedList {ahead taken rest : List Char} {groups : List (Nat × Nat)} :
    (closedList head).Takes ahead.length taken rest groups ↔
      ∃ opening list, Opening Head ahead opening ∧ list ≠ [] ∧ '\x7d' ∉ list ∧
        taken = opening ++ '\x7b' :: (list ++ ['\x7d']) ∧
        groups = [(ahead.length + opening.length + 1, ahead.length + opening.length + 1 + list.length)] := by
  simp only [closedList, openList, blanks, Pattern.takes_seq_of_silent, Pattern.takes_seq_group,
    reads.silent, Pattern.silent_seq, Pattern.silent_text, Pattern.silent_many, Pattern.silent_some,
    List.all_cons, List.all_nil, Bool.and_true, Pattern.takes_seq_nil, Pattern.takes_text,
    Pattern.takes_many, Pattern.takes_some, reads.takes, forall_isInsideBraces_iff, and_true]
  constructor
  · rintro ⟨word, _, rfl, isHead, _, _, rfl,
      ⟨first, _, rfl, blankFirst, _, _, rfl, rfl, second, _, rfl, blankSecond, _, _, rfl, rfl, rfl⟩,
      list, _, _, rfl, rfl, ⟨nonempty, unclosed⟩, _, _, rfl, rfl, rfl, rfl⟩
    refine ⟨word ++ (first ++ '(' :: second), list,
      ⟨word, first, second, isHead, blankFirst, blankSecond, rfl⟩, nonempty, unclosed, by simp, ?_⟩
    simp only [String.reduceToList, List.length_append, List.length_cons, List.length_nil, List.cons.injEq,
      Prod.mk.injEq, and_true]
    omega
  · rintro ⟨_, list, ⟨word, first, second, isHead, blankFirst, blankSecond, rfl⟩, nonempty, unclosed, rfl,
      rfl⟩
    refine ⟨word, _, List.append_assoc _ _ _, isHead, first ++ '(' :: (second ++ ['\x7b']), _, by simp,
      ⟨first, _, rfl, blankFirst, ['('], _, rfl, rfl, second, _, rfl, blankSecond,
        ['\x7b'], [], rfl, rfl, rfl⟩,
      list, ['\x7d'], [], rfl, ?_, ⟨nonempty, unclosed⟩, ['\x7d'], [], rfl, rfl, rfl, rfl⟩
    simp only [List.length_append, List.length_cons, List.length_nil, List.cons.injEq, Prod.mk.injEq,
      and_true]
    omega

/-- A match of the form is a list of the line. -/
theorem ReadsHead.listAt_of_occursAt {line ahead taken rest : List Char} {groups : List (Nat × Nat)}
    (occurs : (closedList head).OccursAt line ahead taken rest groups) :
    ∃ opening list, Opening Head ahead opening ∧ ListAt Head line (ahead ++ (opening ++ ['\x7b'])) list ∧
      groups = [((ahead ++ (opening ++ ['\x7b'])).length,
        (ahead ++ (opening ++ ['\x7b'])).length + list.length)] := by
  rcases reads.takes_closedList.mp occurs.takes with ⟨opening, list, opens, nonempty, unclosed, rfl, rfl⟩
  refine ⟨opening, list, opens, ⟨⟨ahead, opening, opens, rfl⟩, nonempty, unclosed, rest, ?_⟩, ?_⟩
  · simp [occurs.split]
  · simp [Nat.add_assoc]

/-- A list of the line is a match of the form. -/
theorem ReadsHead.occursAt_of_listAt {line before list : List Char} (listAt : ListAt Head line before list) :
    ∃ ahead opening taken rest groups, before = ahead ++ (opening ++ ['\x7b']) ∧
      (closedList head).OccursAt line ahead taken rest groups := by
  obtain ⟨⟨ahead, opening, opens, rfl⟩, nonempty, unclosed, rest, split⟩ := listAt
  refine ⟨ahead, opening, _, rest, _, rfl, ?_,
    reads.takes_closedList.mpr ⟨opening, list, opens, nonempty, unclosed, rfl, rfl⟩⟩
  simp [split]

/-- The match that starts first has the list that starts first: its opening holds no brace, so no other list
starts within it. -/
theorem ReadsHead.firstList_of_find? {line : List Char} {m : Text.Match}
    (found : (closedList head).find? line = some m) :
    ∃ before list, FirstList Head line before list ∧
      m.group 0 = (before.length, before.length + list.length) := by
  rcases Pattern.exists_occursAt_of_find? found with ⟨ahead, taken, rest, occurs, -, -, leftmost⟩
  rcases reads.listAt_of_occursAt occurs with ⟨opening, list, opens, listAt, groups⟩
  refine ⟨_, list, ⟨listAt, ?_⟩, by rw [Text.Match.group, groups]; rfl⟩
  intro before' list' listAt'
  rcases reads.occursAt_of_listAt listAt' with ⟨ahead', opening', taken', rest', groups', rfl, occurs'⟩
  have le := leftmost ahead' taken' rest' groups' occurs'
  obtain ⟨later, split⟩ := listAt.closed
  obtain ⟨later', split'⟩ := listAt'.closed
  obtain ⟨between, rfl⟩ : ahead <+: ahead' := by
    have here : ahead <+: line := ⟨_, by rw [split, List.append_assoc]⟩
    have there : ahead' <+: line := ⟨_, by rw [split', List.append_assoc]⟩
    exact List.prefix_of_prefix_length_le here there le
  have same : between ++ opening' ++ '\x7b' :: (list' ++ '\x7d' :: later') =
      opening ++ '\x7b' :: (list ++ '\x7d' :: later) := by
    have whole := split'.symm.trans split
    simpa using whole
  have ends := length_le_of_not_mem same (reads.opening_braceless opens)
  simp only [List.length_append, List.length_singleton] at ends ⊢
  omega

/-- The names that are found in a line are those of the first list of the form. -/
theorem ReadsHead.isParameter_iff {line : List Char} {found : Found} :
    isParameter (closedList head) line found = true ↔
      ∃ before list, FirstList Head line before list ∧ before.length ≤ found.start ∧
        found.stop ≤ before.length + list.length ∧ found.text ∈ parameterNames list := by
  have cut_list : ∀ {before list}, ListAt Head line before list →
      cut line (before.length, before.length + list.length) = list := by
    intro before list listAt
    obtain ⟨rest, split⟩ := listAt.closed
    rw [split, cut_append]
  cases find? : (closedList head).find? line with
  | none =>
    simp only [isParameter, find?, Bool.false_eq_true, false_iff]
    rintro ⟨before, list, firstList, -⟩
    rcases reads.occursAt_of_listAt firstList.toListAt with ⟨ahead, _, taken, rest, groups, -, occurs⟩
    exact Pattern.find?_eq_none_iff.mp find? ahead taken rest groups occurs
  | some m =>
    rcases reads.firstList_of_find? find? with ⟨before, list, firstList, group⟩
    simp only [isParameter, find?, group, cut_list firstList.toListAt, Bool.and_eq_true, decide_eq_true_eq]
    constructor
    · rintro ⟨⟨start, stop⟩, mem⟩
      exact ⟨before, list, firstList, start, stop, mem⟩
    · rintro ⟨before', list', firstList', start, stop, mem⟩
      obtain ⟨rfl, rfl⟩ := firstList.unique firstList'
      exact ⟨⟨start, stop⟩, mem⟩

end

/-! ## Heads -/

/-- The head of a constructor. -/
def ConstructorHead (_ahead head : List Char) : Prop :=
  head = "constructor".toList

/-- The head of a function that is written with its keyword and, possibly, a name. There is no star of a
generator in it. -/
def KeywordHead (head : List Char) : Prop :=
  ∃ blank name, Blanks blank ∧ (∀ c ∈ name, isNameChar c = true) ∧
    head = "function".toList ++ (blank ++ name)

/-- The head of an arrow function that is assigned to a name: the assignment and, possibly, `async`. -/
def AssignedHead (head : List Char) : Prop :=
  ∃ indent keyword blank name first second async, Blanks indent ∧
    (keyword = [] ∨ keyword ∈ ["const".toList, "let".toList, "var".toList]) ∧ Blanks blank ∧ name ≠ [] ∧
    (∀ c ∈ name, isNameChar c = true) ∧ Blanks first ∧ Blanks second ∧
    (async = [] ∨ ∃ last, Blanks last ∧ async = "async".toList ++ last) ∧
    head = indent ++ (keyword ++ (blank ++ (name ++ (first ++ '=' :: (second ++ async)))))

/-- The head of a function. An assignment counts at the start of the line only. -/
def FunctionHead (ahead head : List Char) : Prop :=
  KeywordHead head ∨ ahead = [] ∧ AssignedHead head

theorem readsHead_constructor : ReadsHead (.text "constructor") ConstructorHead where
  silent := Pattern.silent_text
  takes := by simp [ConstructorHead]
  braceless := by
    rintro ahead taken rfl
    decide

theorem takes_keywordHead {offset : Nat} {taken rest : List Char} :
    (Pattern.seq [.text "function", blanks, .many isNameChar]).Takes offset taken rest [] ↔
      KeywordHead taken := by
  simp only [blanks, Pattern.takes_seq_of_silent, Pattern.silent_text, Pattern.silent_many,
    Pattern.takes_seq_nil, Pattern.takes_text, Pattern.takes_many, and_true]
  constructor
  · rintro ⟨_, _, rfl, rfl, blank, _, rfl, blanks, name, _, rfl, isName, rfl⟩
    exact ⟨blank, name, blanks, isName, by rw [List.append_nil]⟩
  · rintro ⟨blank, name, blanks, isName, rfl⟩
    exact ⟨_, _, rfl, rfl, blank, name, rfl, blanks, name, [], (List.append_nil _).symm, isName, rfl⟩

theorem takes_assignedHead {offset : Nat} {taken rest : List Char} :
    (Pattern.seq [assignment, .maybe (.seq [.text "async", blanks])]).Takes offset taken rest [] ↔
      offset = 0 ∧ AssignedHead taken := by
  simp only [blanks, assignment, Pattern.takes_orElse, Pattern.takes_maybe, Pattern.takes_seq_of_silent,
    Pattern.silent_seq, Pattern.silent_text, Pattern.silent_many, Pattern.silent_some, Pattern.silent_atStart,
    Pattern.silent_orElse, Pattern.silent_maybe, List.all_cons, List.all_nil, Bool.and_true,
    Pattern.takes_seq_nil, Pattern.takes_text, Pattern.takes_many, Pattern.takes_some, Pattern.takes_atStart,
    and_true]
  constructor
  · rintro ⟨_, _, rfl, ⟨_, _, rfl, ⟨rfl, rfl⟩, indent, _, rfl, blankIndent, keyword, _, rfl, isKeyword,
      blank, _, rfl, isBlank, name, _, rfl, ⟨nonempty, isName⟩, first, _, rfl, blankFirst, _, _, rfl, rfl,
      second, _, rfl, blankSecond, rfl⟩, async, _, rfl, isAsync, rfl⟩
    refine ⟨rfl, indent, keyword, blank, name, first, second, async, blankIndent, ?_, isBlank, nonempty,
      isName, blankFirst, blankSecond, ?_, by simp⟩
    · simpa [or_comm] using isKeyword
    · rcases isAsync with ⟨_, _, rfl, rfl, last, _, rfl, blankLast, rfl⟩ | rfl
      · exact .inr ⟨last, blankLast, by rw [List.append_nil]⟩
      · exact .inl rfl
  · rintro ⟨rfl, indent, keyword, blank, name, first, second, async, blankIndent, isKeyword, isBlank,
      nonempty, isName, blankFirst, blankSecond, isAsync, rfl⟩
    refine ⟨indent ++ (keyword ++ (blank ++ (name ++ (first ++ '=' :: second)))), async, by simp,
      ⟨[], _, rfl, ⟨rfl, rfl⟩, indent, _, rfl, blankIndent, keyword, _, rfl, ?_, blank, _, rfl, isBlank,
        name, _, rfl, ⟨nonempty, isName⟩, first, _, rfl, blankFirst, ['='], second, rfl, rfl,
        second, [], (List.append_nil _).symm, blankSecond, rfl⟩,
      async, [], (List.append_nil _).symm, ?_, rfl⟩
    · simpa [or_comm] using isKeyword
    · rcases isAsync with rfl | ⟨last, blankLast, rfl⟩
      · exact .inr rfl
      · exact .inl ⟨_, last, rfl, rfl, last, [], (List.append_nil _).symm, blankLast, rfl⟩

theorem readsHead_function :
    ReadsHead
      (.orElse (.seq [.text "function", blanks, .many isNameChar])
        (.seq [assignment, .maybe (.seq [.text "async", blanks])])) FunctionHead where
  silent := by simp [blanks, assignment]
  takes := by
    intro ahead taken rest
    rw [Pattern.takes_orElse, takes_keywordHead, takes_assignedHead, List.length_eq_zero_iff, FunctionHead]
  braceless := by
    rintro ahead _ (⟨blank, name, isBlank, isName, rfl⟩ | ⟨-, indent, keyword, blank, name, first, second,
      async, blankIndent, isKeyword, isBlank, -, isName, blankFirst, blankSecond, isAsync, rfl⟩)
    · simp [isBlank.braceless, braceless_of_name isName]
    · have keyword_braceless : '\x7b' ∉ keyword := by
        rcases isKeyword with rfl | mem
        · simp
        · revert keyword
          decide
      have async_braceless : '\x7b' ∉ async := by
        rcases isAsync with rfl | ⟨last, blankLast, rfl⟩
        · simp
        · simp [blankLast.braceless]
      simp [blankIndent.braceless, keyword_braceless, isBlank.braceless, braceless_of_name isName,
        blankFirst.braceless, blankSecond.braceless, async_braceless]

/-! ## Completion and navigation -/

/-- The word is named in the first closed list of the given kind, and stands in it. -/
def NamedInFirst (Head : List Char → List Char → Prop) (left name right : List Char) : Prop :=
  ∃ before list, FirstList Head (left ++ (name ++ right)) before list ∧ before.length ≤ left.length ∧
    left.length + name.length ≤ before.length + list.length ∧ name ∈ parameterNames list

/-- The text ends with a dot, with an odd number of `.cradle` one behind another in front of it. -/
def EndsWithOddCradles (text : List Char) : Prop :=
  ∃ front n, text = front ++ (cradles n ++ ['.']) ∧ ¬ ".cradle".toList <:+ front ∧ n % 2 = 1

theorem isCradleMember_iff_endsWithOddCradles {left name right : List Char}
    (word : WordAt left name right) (ends : ".cradle.".toList <:+ left) :
    isCradleMember (left ++ (name ++ right)) (.behind left name) = true ↔ EndsWithOddCradles left := by
  constructor
  · intro member
    obtain ⟨before, rfl⟩ := ends
    rcases exists_cradles (before ++ ".cradle".toList) with ⟨front, n, split, other⟩
    have whole : before ++ ".cradle.".toList = front ++ (cradles n ++ ['.']) := by
      rw [← List.append_assoc, ← split, List.append_assoc]
      rfl
    exact ⟨front, n, whole, other, (isCradleMember_iff word whole other).mp member⟩
  · rintro ⟨front, n, split, other, odd⟩
    exact (isCradleMember_iff word split other).mpr odd

/-- Where completion offers names, navigation finds nothing but the word at the cursor, and finds it in these
cases: behind `.cradle.` if the number of `.cradle` there is odd; in a parameter list if it is the first
closed list of a constructor, or the first closed list of a function that is no generator, and names the
word. -/
theorem keyAt_iff_of_detect {left name right : List Char} (word : WordAt left name right)
    (oneLine : '\n' ∉ left) :
    (detect left (name ++ right) = some .cradleDot →
      ∀ found, keyAt (left ++ (name ++ right)) left.length = some found ↔
        found = .behind left name ∧
          (EndsWithOddCradles left ∨ NamedInFirst ConstructorHead left name right ∨
            NamedInFirst FunctionHead left name right)) ∧
    (detect left (name ++ right) = some .destructuring →
      ∀ found, keyAt (left ++ (name ++ right)) left.length = some found ↔
        found = .behind left name ∧
          (NamedInFirst ConstructorHead left name right ∨ NamedInFirst FunctionHead left name right)) := by
  have parameter : (isParameter closedConstructor (left ++ (name ++ right)) (.behind left name) = true ∨
      isParameter closedFunction (left ++ (name ++ right)) (.behind left name) = true) ↔
        NamedInFirst ConstructorHead left name right ∨ NamedInFirst FunctionHead left name right :=
    or_congr readsHead_constructor.isParameter_iff readsHead_function.isParameter_iff
  constructor
  · intro cradle found
    rcases detect_cases cradle with ⟨_, _, no, -⟩ | ⟨-, outside, occurs⟩ | ⟨no, -⟩
    · cases no
    · have ends := (occursIn_openCradle oneLine).mp occurs
      rw [keyAt_of_word word outside, isCradleMember_iff_endsWithOddCradles word ends, parameter]
    · cases no
  · intro list found
    rcases detect_cases list with ⟨_, _, no, -⟩ | ⟨no, -⟩ | ⟨-, outside, noCradle, -⟩
    · cases no
    · cases no
    · have notMember : ¬ isCradleMember (left ++ (name ++ right)) (.behind left name) = true := by
        intro member
        rw [(occursIn_openCradle oneLine).mpr (suffix_of_isCradleMember member)] at noCradle
        cases noCradle
      rw [keyAt_of_word word outside, or_iff_right notMember, parameter]

/-- Navigation finds the member of a chain of three and a renamed parameter of a constructor. -/
theorem keyAt_iff_of_detect_found :
    keyAt "x.cradle.cradle.cradle.db".toList 23 = some ⟨"db".toList, 23, 25⟩ ∧
      keyAt "constructor(\x7b a, b: c \x7d) \x7b\x7d".toList 17 = some ⟨"b".toList, 17, 18⟩ := by
  have member : WordAt "x.cradle.cradle.cradle.".toList "db".toList [] :=
    ⟨by decide, List.all_eq_true.mp (by decide), by rintro c ⟨⟩; decide, by rintro c ⟨⟩⟩
  have parameter : WordAt "constructor(\x7b a, ".toList "b".toList ": c \x7d) \x7b\x7d".toList :=
    ⟨by decide, List.all_eq_true.mp (by decide), by rintro c ⟨⟩; decide, by rintro c ⟨⟩; decide⟩
  have named : NamedInFirst ConstructorHead "constructor(\x7b a, ".toList "b".toList
      ": c \x7d) \x7b\x7d".toList := by
    have opens : OpensList ConstructorHead "constructor(\x7b".toList :=
      ⟨[], "constructor(".toList,
        ⟨"constructor".toList, [], [], rfl, by simp [Blanks], by simp [Blanks], rfl⟩, rfl⟩
    refine ⟨"constructor(\x7b".toList, " a, b: c ".toList,
      ⟨⟨opens, by decide, by decide, ") \x7b\x7d".toList, by decide⟩, ?_⟩, by decide, by decide, by decide⟩
    -- no opening is shorter than this one
    rintro before' list' ⟨⟨ahead, _, ⟨_, first, second, rfl, -, -, rfl⟩, rfl⟩, -⟩
    simp only [String.reduceToList, List.length_append, List.length_cons, List.length_nil]
    omega
  have odd : EndsWithOddCradles "x.cradle.cradle.cradle.".toList :=
    ⟨['x'], 3, by decide, by decide, rfl⟩
  obtain ⟨found, -⟩ := keyAt_iff_of_detect member (by decide)
  obtain ⟨-, found'⟩ := keyAt_iff_of_detect parameter (by decide)
  exact ⟨(found (by decide) _).mpr ⟨rfl, .inl odd⟩, (found' (by decide) _).mpr ⟨rfl, .inl named⟩⟩

/-- Completion offers the parameter of a generator and the member of a chain of two; navigation finds
neither. -/
theorem offered_words_missed :
    (detect "function* g(\x7b".toList "a\x7d)".toList = some .destructuring ∧
      "a".toList ∈ parameterNames "a".toList ∧ keyAt "function* g(\x7ba\x7d)".toList 13 = none) ∧
    (detect "x.cradle.cradle.".toList "db".toList = some .cradleDot ∧
      keyAt "x.cradle.cradle.db".toList 16 = none) := by
  refine ⟨⟨by decide, by decide, ?_⟩, by decide, ?_⟩
  · decide +kernel
  · decide +kernel

end ContainerKeys.Cursor
