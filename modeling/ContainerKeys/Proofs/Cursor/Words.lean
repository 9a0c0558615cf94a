import ContainerKeys.Proofs.Cursor.Literals

/-!
# Words under the cursor

A word of a line is a longest run of name characters. The cursor at its start finds it, and it counts as a
member of the cradle if an odd number of `.cradle` stands in front of its dot: where several stand one
behind another, every second one is itself the member of the one before.

* `nameAt?_of_word` — the name under the cursor.
* `isCradleMember_iff` — the members of the cradle.
-/

namespace ContainerKeys.Cursor

open Text (Pattern isNameChar)

/-! ## Words -/

/-- The text `name` is a word where it stands between `left` and `right`. -/
structure WordAt (left name right : List Char) : Prop where
  nonempty : name ≠ []
  all : ∀ c ∈ name, isNameChar c = true
  before : ∀ c ∈ left.getLast?, isNameChar c = false
  after : ∀ c ∈ right.head?, isNameChar c = false

/-- A text where it stands behind another. -/
def Found.behind (left text : List Char) : Found :=
  ⟨text, left.length, left.length + text.length⟩

@[simp] theorem Found.start_behind (left text : List Char) : (behind left text).start = left.length := rfl

@[simp] theorem Found.stop_behind (left text : List Char) :
    (behind left text).stop = left.length + text.length := rfl

/-- A name ends before the next character that is not one of a name. -/
theorem name_within {offset : Nat} {behind rest : List Char} {c : Char} {m : Text.Match}
    (notName : isNameChar c = false) (here : name.matchAt offset (behind ++ c :: rest) = some m) :
    offset < m.stop ∧ m.stop ≤ offset + behind.length := by
  rcases Pattern.exists_takes_of_matchAt here with ⟨taken, later, split, takes, -, stop⟩
  rw [name, Pattern.takes_some] at takes
  obtain ⟨nonempty, all, -⟩ := takes
  have fits := length_le_of_not_mem split (not_mem_of_forall all notName)
  have positive := List.length_pos_iff.mpr nonempty
  omega

section

variable {left name right : List Char} (word : WordAt left name right)

include word

theorem WordAt.findAllFrom (offset : Nat) :
    Cursor.name.findAllFrom offset (name ++ right) =
      ⟨offset, offset + name.length, []⟩ :: Cursor.name.findAllFrom (offset + name.length) right :=
  Pattern.findAllFrom_of_matchAt (Pattern.exec_some_run word.nonempty word.all word.after rfl) rfl word.nonempty

/-- The names of a line that come before a word end before it starts. -/
theorem WordAt.exists_findAll :
    ∃ ms more, Cursor.name.findAll (left ++ (name ++ right)) =
        ms ++ ⟨left.length, left.length + name.length, []⟩ :: more ∧
      ∀ m ∈ ms, m.stop < left.length := by
  rcases List.eq_nil_or_concat left with rfl | ⟨front, c, rfl⟩
  · exact ⟨[], _, word.findAllFrom 0, by simp⟩
  · have notName : isNameChar c = false := word.before c (by simp)
    rw [List.concat_eq_append, List.append_assoc, List.singleton_append, List.length_append,
      List.length_singleton, Pattern.findAll]
    -- no name that starts before the last character `c` of `left` reaches it, and none starts there
    have apart : ∀ ahead behind m, front = ahead ++ behind → behind ≠ [] →
        Cursor.name.matchAt (0 + ahead.length) (behind ++ c :: (name ++ right)) = some m →
        0 + ahead.length < m.stop ∧ m.stop ≤ 0 + front.length := by
      rintro ahead behind m rfl - here
      have within := name_within notName here
      rw [List.length_append]
      omega
    have nothing : ∀ offset, Cursor.name.matchAt offset (c :: (name ++ right)) = none := by
      intro offset
      cases here : Cursor.name.matchAt offset (c :: (name ++ right)) with
      | none => rfl
      | some m =>
        rw [← List.nil_append (c :: _)] at here
        have within := name_within notName here
        rw [List.length_nil] at within
        omega
    rcases Pattern.findAllFrom_append apart with ⟨ms, split, stops⟩
    rw [Nat.zero_add, Pattern.findAllFrom_of_matchAt_eq_none (nothing _), word.findAllFrom] at split
    refine ⟨ms, _, split, ?_⟩
    intro m mem
    have ends := stops m mem
    omega

/-- The cursor at the start of a word finds it. -/
theorem nameAt?_of_word :
    nameAt? (left ++ (name ++ right)) left.length = some (.behind left name) := by
  rcases word.exists_findAll with ⟨ms, more, all, stops⟩
  have first : ((ms ++ ⟨left.length, left.length + name.length, []⟩ :: more).find? fun m : Text.Match =>
      (m.start : Int) ≤ left.length && (left.length : Int) ≤ m.stop) =
        some ⟨left.length, left.length + name.length, []⟩ := by
    rw [List.find?_append, List.find?_eq_none.mpr, Option.none_or]
    · simp
    · intro m mem
      have ends := stops m mem
      simp only [Bool.and_eq_true, decide_eq_true_eq, not_and]
      omega
  rw [nameAt?, all, first, Option.map_some, cut_append]
  rfl

end

/-! ## Members of the cradle -/

/-- So many `.cradle` one behind another. -/
def cradles (n : Nat) : List Char :=
  (List.replicate n ".cradle".toList).flatten

theorem cradles_succ (n : Nat) : cradles (n + 1) = ".cradle".toList ++ cradles n := by
  rw [cradles, List.replicate_succ, List.flatten_cons, ← cradles]

@[simp] theorem length_cradles (n : Nat) : (cradles n).length = 7 * n := by
  induction n with
  | zero => rfl
  | succ n ih =>
    rw [cradles_succ, List.length_append, ih]
    show 7 + 7 * n = 7 * (n + 1)
    omega

theorem takes_cradleMember {offset : Nat} {taken rest : List Char} {groups : List (Nat × Nat)} :
    cradleMember.Takes offset taken rest groups ↔
      ∃ member, member ≠ [] ∧ (∀ c ∈ member, isNameChar c = true) ∧ taken = ".cradle.".toList ++ member ∧
        groups = [(offset + 8, offset + 8 + member.length)] := by
  simp only [cradleMember, Pattern.takes_seq_of_silent, Pattern.takes_seq_group, Pattern.silent_text,
    Pattern.silent_some, Pattern.takes_seq_nil, Pattern.takes_text, Pattern.takes_some, and_true]
  constructor
  · rintro ⟨_, _, rfl, rfl, member, _, _, rfl, rfl, ⟨nonempty, all⟩, rfl, rfl⟩
    exact ⟨member, nonempty, all, by rw [List.append_nil], rfl⟩
  · rintro ⟨member, nonempty, all, rfl, rfl⟩
    exact ⟨_, member, rfl, rfl, member, [], [], (List.append_nil _).symm, rfl, ⟨nonempty, all⟩, rfl, rfl⟩

theorem findAllFrom_cradleMember (offset : Nat) {member rest : List Char} (nonempty : member ≠ [])
    (all : ∀ c ∈ member, isNameChar c = true) (stops : ∀ c ∈ rest.head?, isNameChar c = false) :
    cradleMember.findAllFrom offset (".cradle.".toList ++ (member ++ rest)) =
      ⟨offset, offset + 8 + member.length, [(offset + 8, offset + 8 + member.length)]⟩ ::
        cradleMember.findAllFrom (offset + 8 + member.length) rest := by
  have here : cradleMember.matchAt offset (".cradle.".toList ++ (member ++ rest)) =
      some ⟨offset, offset + 8 + member.length, [(offset + 8, offset + 8 + member.length)]⟩ := by
    simp only [Pattern.matchAt, cradleMember, Pattern.seq, List.foldr_cons, List.foldr_nil, Pattern.exec]
    rw [Pattern.exec_text]
    exact Pattern.exec_some_run nonempty all stops rfl
  have length : (".cradle.".toList ++ member).length = 8 + member.length := List.length_append
  rw [← List.append_assoc] at here ⊢
  rw [Pattern.findAllFrom_of_matchAt here (by rw [length, Nat.add_assoc]) (by simp), length, Nat.add_assoc]

theorem isNameChar_dot : isNameChar '.' = false := by
  decide

theorem isNameChar_of_isQuote {c : Char} (h : isQuote c = true) : isNameChar c = false := by
  rw [isQuote, Bool.or_eq_true, beq_iff_eq, beq_iff_eq] at h
  rcases h with rfl | rfl
  · decide
  · decide

theorem exists_of_mem_findAllFrom {ahead text : List Char} {m : Text.Match}
    (h : m ∈ cradleMember.findAllFrom ahead.length text) :
    ∃ before rest, ahead ++ text = before ++ (".cradle.".toList ++ rest) ∧ ahead.length ≤ before.length ∧
      (m.group 0).1 = before.length + 8 ∧ (m.group 0).2 = m.stop := by
  rcases Pattern.exists_occursAt_of_mem_findAllFrom ahead h with
    ⟨before, taken, rest, occurs, -, stop, le⟩
  rcases takes_cradleMember.mp occurs.takes with ⟨member, -, -, rfl, groups⟩
  refine ⟨before, member ++ rest, ?_, le, ?_, ?_⟩
  · rw [occurs.split, List.append_assoc]
  · simp [Text.Match.group, groups]
  · rw [Text.Match.group, groups, stop, List.length_append, ← Nat.add_assoc]
    rfl

/-- The dots of a member are the two of `.cradle.`. -/
theorem eq_cradle_of_dot {behind more member : List Char} (nonempty : behind ≠ []) (dotless : '.' ∉ member)
    (same : ".cradle.".toList ++ member = behind ++ '.' :: more) : behind = ".cradle".toList := by
  have spelled : ".cradle.".toList ++ member = '.' :: ("cradle".toList ++ '.' :: member) := rfl
  rw [spelled] at same
  cases behind with
  | nil => exact absurd rfl nonempty
  | cons b behind =>
    obtain ⟨rfl, later⟩ := List.cons.inj same
    have length : "cradle".toList.length = behind.length :=
      Nat.le_antisymm (length_le_of_not_mem later.symm (by decide))
        (length_le_of_not_mem_rest later dotless)
    have name : "cradle".toList = behind := List.append_inj_left later length
    rw [← name]
    rfl

/-- Where no `.cradle` stands in front of a dot, no member that starts earlier reaches that dot. -/
theorem cradleMember_within {offset : Nat} {behind rest : List Char} {m : Text.Match}
    (nonempty : behind ≠ []) (other : behind ≠ ".cradle".toList)
    (here : cradleMember.matchAt offset (behind ++ '.' :: rest) = some m) :
    offset < m.stop ∧ m.stop ≤ offset + behind.length := by
  rcases Pattern.exists_takes_of_matchAt here with ⟨taken, later, split, takes, -, stop⟩
  rcases takes_cradleMember.mp takes with ⟨member, member_ne, all, rfl, -⟩
  have positive : 0 < (".cradle.".toList ++ member).length := by simp
  rcases List.append_eq_append_iff.mp split with ⟨more, reach, shift⟩ | ⟨more, rfl, -⟩
  · cases more with
    | nil =>
      rw [List.append_nil] at reach
      rw [← reach]
      omega
    | cons d more =>
      obtain ⟨rfl, -⟩ := List.cons.inj shift
      have dotless : '.' ∉ member := not_mem_of_forall all isNameChar_dot
      exact absurd (eq_cradle_of_dot nonempty dotless reach) other
  · rw [@List.length_append _ _ more]
    omega

section

variable {left name right : List Char} (word : WordAt left name right)

include word

/-- Of several `.cradle` one behind another, every second one is a member. -/
theorem any_cradles (ahead : List Char) : ∀ n,
    ((cradleMember.findAllFrom ahead.length (cradles n ++ '.' :: (name ++ right))).any fun m =>
        m.group 0 = (ahead.length + 7 * n + 1, ahead.length + 7 * n + 1 + name.length)) = true ↔
      n % 2 = 1
  | 0 => by
    have none : ∀ m ∈ cradleMember.findAllFrom ahead.length ('.' :: (name ++ right)),
        m.group 0 ≠ (ahead.length + 1, ahead.length + 1 + name.length) := by
      intro m mem same
      rcases exists_of_mem_findAllFrom mem with ⟨before, rest, -, le, start, -⟩
      rw [same] at start
      omega
    simpa [cradles] using none
  | 1 => by
    have text : cradles 1 ++ '.' :: (name ++ right) = ".cradle.".toList ++ (name ++ right) := rfl
    rw [text, findAllFrom_cradleMember _ word.nonempty word.all word.after]
    simp [Text.Match.group]
  | n + 2 => by
    have text : cradles (n + 2) ++ '.' :: (name ++ right) =
        ".cradle.".toList ++ ("cradle".toList ++ (cradles n ++ '.' :: (name ++ right))) := by
      simp [cradles_succ]
    have stops : ∀ c ∈ (cradles n ++ '.' :: (name ++ right)).head?, isNameChar c = false := by
      cases n with
      | zero => simp [cradles, isNameChar_dot]
      | succ n => simp [cradles_succ, isNameChar_dot]
    have length : (ahead ++ cradles 2).length = ahead.length + 8 + "cradle".toList.length := by
      simp
    have target : (ahead ++ cradles 2).length + 7 * n + 1 = ahead.length + 7 * (n + 2) + 1 := by
      rw [List.length_append, length_cradles]
      omega
    have ih := any_cradles (ahead ++ cradles 2) n
    rw [target, length] at ih
    have other : (⟨ahead.length, ahead.length + 8 + "cradle".toList.length,
        [(ahead.length + 8, ahead.length + 8 + "cradle".toList.length)]⟩ : Text.Match).group 0 ≠
          (ahead.length + 7 * (n + 2) + 1, ahead.length + 7 * (n + 2) + 1 + name.length) := by
      intro same
      have start := congrArg Prod.fst same
      simp only [Text.Match.group, List.getD_cons_zero] at start
      omega
    have isName : ∀ c ∈ "cradle".toList, isNameChar c = true := List.all_eq_true.mp (by decide)
    rw [text, findAllFrom_cradleMember _ (by decide) isName stops, List.any_cons, decide_eq_false other,
      Bool.false_or, ih]
    omega

/-- A word is a member if the number of `.cradle` right in front of its dot is odd. -/
theorem isCradleMember_iff {front : List Char} {n : Nat} (split : left = front ++ (cradles n ++ ['.']))
    (other : ¬ ".cradle".toList <:+ front) :
    isCradleMember (left ++ (name ++ right)) (.behind left name) = true ↔
      n % 2 = 1 := by
  obtain ⟨rest, starts⟩ : ∃ rest, cradles n ++ '.' :: (name ++ right) = '.' :: rest := by
    cases n with
    | zero => exact ⟨_, rfl⟩
    | succ n => exact ⟨_, by rw [cradles_succ]; rfl⟩
  have line : left ++ (name ++ right) = front ++ (cradles n ++ '.' :: (name ++ right)) := by
    simp [split]
  have apart : ∀ ahead behind m, front = ahead ++ behind → behind ≠ [] →
      cradleMember.matchAt (0 + ahead.length) (behind ++ '.' :: rest) = some m →
      0 + ahead.length < m.stop ∧ m.stop ≤ 0 + front.length := by
    rintro ahead behind m rfl nonempty here
    have notCradle : behind ≠ ".cradle".toList := by
      rintro rfl
      exact other (List.suffix_append _ _)
    have within := cradleMember_within nonempty notCradle here
    rw [List.length_append]
    omega
  rcases Pattern.findAllFrom_append apart with ⟨ms, all, stops⟩
  have length : left.length = front.length + 7 * n + 1 := by
    simp [split, Nat.add_assoc]
  have early : ∀ m ∈ ms, m.group 0 ≠ (left.length, left.length + name.length) := by
    intro m mem same
    have found : m ∈ cradleMember.findAllFrom ([] : List Char).length (front ++ '.' :: rest) := by
      rw [List.length_nil, all]
      exact List.mem_append_left _ mem
    rcases exists_of_mem_findAllFrom found with ⟨-, -, -, -, -, stop⟩
    have ends := stops m mem
    rw [same] at stop
    omega
  rw [Nat.zero_add] at all
  rw [isCradleMember, Found.start_behind, Found.stop_behind, Pattern.findAll, line, starts, all,
    List.any_append, List.any_eq_false.mpr, Bool.false_or, ← starts, length]
  · exact any_cradles word front n
  · simpa using early

end

/-- A member stands right behind `.cradle.`. -/
theorem suffix_of_isCradleMember {left name right : List Char}
    (h : isCradleMember (left ++ (name ++ right)) (.behind left name) = true) :
    ".cradle.".toList <:+ left := by
  obtain ⟨m, mem, same⟩ := List.any_eq_true.mp h
  have found : m ∈ cradleMember.findAllFrom ([] : List Char).length (left ++ (name ++ right)) := mem
  rcases exists_of_mem_findAllFrom found with ⟨before, rest, split, -, start, -⟩
  rw [of_decide_eq_true same] at start
  rw [List.nil_append, ← List.append_assoc before] at split
  have length : left.length = (before ++ ".cradle.".toList).length := by
    simpa using start
  rw [List.append_inj_left split length]
  exact List.suffix_append _ _

/-! ## The context of a word -/

/-- Every text ends with some number of `.cradle`, possibly none. -/
theorem exists_cradles (text : List Char) :
    ∃ front n, text = front ++ cradles n ∧ ¬ ".cradle".toList <:+ front := by
  induction length : text.length using Nat.strongRecOn generalizing text with
  | ind size ih =>
    by_cases ends : ".cradle".toList <:+ text
    · obtain ⟨shorter, rfl⟩ := ends
      have lt : shorter.length < size := by
        rw [← length, List.length_append]
        exact Nat.lt_add_of_pos_right (by decide)
      rcases ih shorter.length lt shorter rfl with ⟨front, n, rfl, other⟩
      refine ⟨front, n + 1, ?_, other⟩
      simp [cradles, List.replicate_succ']
    · exact ⟨text, 0, by simp [cradles], ends⟩

theorem takes_openCradle {offset : Nat} {taken rest : List Char} {groups : List (Nat × Nat)} :
    openCradle.Takes offset taken rest groups ↔
      taken = ".cradle.".toList ∧ (rest = [] ∨ rest = ['\n']) ∧ groups = [] := by
  simp only [openCradle, Pattern.takes_seq_of_silent, Pattern.silent_text, Pattern.silent_atEnd,
    Pattern.takes_seq_nil, Pattern.takes_text, Pattern.takes_atEnd, and_true]
  constructor
  · rintro ⟨_, _, rfl, rfl, _, _, rfl, ⟨atEnd, rfl⟩, rfl, rfl⟩
    exact ⟨by simp, atEnd, rfl⟩
  · rintro ⟨rfl, atEnd, rfl⟩
    exact ⟨_, [], (List.append_nil _).symm, rfl, [], [], rfl, ⟨atEnd, rfl⟩, rfl, rfl⟩

/-- The text ends with `.cradle.`; a line feed behind it does not count. -/
def EndsWithCradle (text : List Char) : Prop :=
  ".cradle.".toList <:+ text ∨ ".cradle.".toList ++ ['\n'] <:+ text

instance (text : List Char) : Decidable (EndsWithCradle text) :=
  inferInstanceAs (Decidable (_ ∨ _))

theorem occursIn_openCradle_iff {text : List Char} :
    openCradle.occursIn text = true ↔ EndsWithCradle text := by
  rw [Pattern.occursIn_iff]
  constructor
  · rintro ⟨before, taken, rest, groups, occurs⟩
    obtain ⟨rfl, rfl | rfl, -⟩ := takes_openCradle.mp occurs.takes
    · exact .inl ⟨before, by rw [occurs.split, List.append_nil]⟩
    · exact .inr ⟨before, occurs.split.symm⟩
  · rintro (⟨before, rfl⟩ | ⟨before, rfl⟩)
    · exact ⟨before, _, [], [], by rw [List.append_nil], takes_openCradle.mpr ⟨rfl, .inl rfl, rfl⟩⟩
    · exact ⟨before, _, ['\n'], [], rfl, takes_openCradle.mpr ⟨rfl, .inr rfl, rfl⟩⟩

theorem occursIn_openCradle {text : List Char} (oneLine : '\n' ∉ text) :
    openCradle.occursIn text = true ↔ ".cradle.".toList <:+ text := by
  rw [occursIn_openCradle_iff, EndsWithCradle, or_iff_left]
  rintro ⟨before, rfl⟩
  simp at oneLine

section

variable {left name right : List Char} (word : WordAt left name right)

include word

/-- No string is open at the start of a word unless the word is completed in it. -/
theorem openString?_of_word (outside : resolveSpan? left (name ++ right) = none) :
    openString? left = none := by
  cases opened : openString? left with
  | none => rfl
  | some s =>
    rcases exists_openIn opened with ⟨head, tail, openIn⟩
    rw [resolveSpan?_of_open opened] at outside
    split at outside
    -- a word does not start with a quote
    · rename_i next
      cases name with
      | nil => exact absurd rfl word.nonempty
      | cons c name =>
        have same : c = s.quote := Option.some.inj next
        have isName := word.all c List.mem_cons_self
        rw [same, isNameChar_of_isQuote openIn.quoted] at isName
        cases isName
    · cases outside

/-- Outside of strings, the key under the cursor can only be the word there, and is if the word is a member
or a parameter. -/
theorem keyAt_of_word (outside : resolveSpan? left (name ++ right) = none) (found : Found) :
    keyAt (left ++ (name ++ right)) left.length = some found ↔
      found = .behind left name ∧
        (isCradleMember (left ++ (name ++ right)) (.behind left name) = true ∨
          isParameter closedConstructor (left ++ (name ++ right)) (.behind left name) = true ∨
          isParameter closedFunction (left ++ (name ++ right)) (.behind left name) = true) := by
  rw [keyAt, sliceTo_append, sliceFrom_append, resolveKey?, openString?_of_word word outside,
    nameAt?_of_word word]
  simp only [Bool.or_eq_true, or_assoc]
  constructor
  · intro h
    split at h
    · rename_i reason
      cases h
      exact ⟨rfl, reason⟩
    · cases h
  · rintro ⟨rfl, reason⟩
    rw [if_pos reason]

end

end ContainerKeys.Cursor
