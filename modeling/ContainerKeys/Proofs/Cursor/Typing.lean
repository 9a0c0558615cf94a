import ContainerKeys.Proofs.Cursor.Lists

/-!
# Typing in a parameter list

A parameter list that is open at the cursor stays open until its brace is closed: whatever is typed, the
opening of the list is still there, and what follows it still holds no closing brace. So completion goes on
to offer names, unless what is typed opens a string or ends with `.cradle.`.

* `InOpenList.append` — an open list stays open.
* `typing_keeps_destructuring` — completion in an open list.
-/

namespace ContainerKeys.Cursor

open Text (Pattern)

/-! ## Open lists -/

/-- The form of a list with the given head that is not closed up to the cursor. -/
def unclosedList (head : Pattern) : Pattern :=
  .seq [head, openList, .many isInsideBraces, .atEnd]

/-- An open list is its head, its opening and no closing brace from there on. A line feed at the very end
makes no difference: it may as well be part of the list. -/
theorem occursIn_unclosedList_iff {head : Pattern} (silent : head.Silent = true)
    (free : head.EndFree = true) {text : List Char} :
    (unclosedList head).occursIn text = true ↔
      ∃ before word opening list, text = before ++ (word ++ (opening ++ list)) ∧ '\x7d' ∉ list ∧
        head.Takes before.length word [] [] ∧
        openList.Takes (before.length + word.length) opening [] [] := by
  have openSilent : openList.Silent = true := by simp [openList, blanks]
  have openFree : openList.EndFree = true := by decide
  rw [Pattern.occursIn_iff]
  simp only [unclosedList]
  constructor
  · rintro ⟨before, taken, rest, groups, split, takes⟩
    simp only [Pattern.takes_seq_of_silent, silent, openSilent, Pattern.silent_many, Pattern.silent_atEnd,
      Pattern.takes_seq_nil, Pattern.takes_many, Pattern.takes_atEnd, forall_isInsideBraces_iff,
      and_true] at takes
    obtain ⟨word, _, rfl, takesHead, opening, _, rfl, takesOpening, list, _, rfl, unclosed, _, _, rfl,
      ⟨atEnd, rfl⟩, rfl, rfl⟩ := takes
    refine ⟨before, word, opening, list ++ rest, by simp [split], ?_, takesHead.of_endFree free [],
      takesOpening.of_endFree openFree []⟩
    -- what is left over is nothing, or a line feed
    rcases atEnd with rfl | rfl
    · simpa using unclosed
    · simpa using unclosed
  · rintro ⟨before, word, opening, list, rfl, unclosed, takesHead, takesOpening⟩
    refine ⟨before, word ++ (opening ++ list), [], [], by simp, ?_⟩
    simp only [Pattern.takes_seq_of_silent, silent, openSilent, Pattern.silent_many, Pattern.silent_atEnd,
      Pattern.takes_seq_nil, Pattern.takes_many, Pattern.takes_atEnd, forall_isInsideBraces_iff, and_true]
    exact ⟨word, _, rfl, takesHead.of_endFree free _, opening, list, rfl, takesOpening.of_endFree openFree _,
      list, [], (List.append_nil _).symm, unclosed, [], [], rfl, ⟨.inl rfl, rfl⟩, rfl⟩

/-- What is typed in an open list leaves it open. -/
theorem occursIn_unclosedList_append {head : Pattern} (silent : head.Silent = true)
    (free : head.EndFree = true) {text typed : List Char}
    (opened : (unclosedList head).occursIn text = true) (unclosed : '\x7d' ∉ typed) :
    (unclosedList head).occursIn (text ++ typed) = true := by
  rw [occursIn_unclosedList_iff silent free] at opened ⊢
  obtain ⟨before, word, opening, list, rfl, inside, takesHead, takesOpening⟩ := opened
  refine ⟨before, word, opening, list ++ typed, by simp, ?_, takesHead, takesOpening⟩
  simp [inside, unclosed]

/-- A parameter list of a constructor or a function is open at the end of the text. -/
def InOpenList (text : List Char) : Prop :=
  openConstructor.occursIn text = true ∨ openFunction.occursIn text = true

theorem InOpenList.append {text typed : List Char} (h : InOpenList text) (unclosed : '\x7d' ∉ typed) :
    InOpenList (text ++ typed) := by
  rcases h with constructor | function
  · exact .inl (occursIn_unclosedList_append Pattern.silent_text (by decide) constructor unclosed)
  · refine .inr (occursIn_unclosedList_append ?_ (by decide) function unclosed)
    simp [assignment, functionHead, blanks]

/-! ## Completion -/

/-- A string of a `resolve` call is completed between the two texts. -/
def CompletesString (before after : List Char) : Prop :=
  ∃ head quote rest, LastQuote before head quote rest ∧ OpensResolve head ∧ after.head? ≠ some quote

theorem resolveSpan?_eq_none_iff {before after : List Char} :
    resolveSpan? before after = none ↔ ¬ CompletesString before after := by
  rw [Option.eq_none_iff_forall_ne_some]
  constructor
  · rintro none ⟨head, quote, rest, last, opens, apart⟩
    exact none _ (resolveSpan?_eq_some_iff.mpr ⟨head, quote, rest, last, opens, apart, rfl, rfl⟩)
  · rintro outside ⟨start, stop⟩ span
    obtain ⟨head, quote, rest, last, opens, apart, -⟩ := resolveSpan?_eq_some_iff.mp span
    exact outside ⟨head, quote, rest, last, opens, apart⟩

theorem detect_eq_destructuring_iff {before after : List Char} :
    detect before after = some .destructuring ↔
      ¬ CompletesString before after ∧ ¬ EndsWithCradle before ∧ InOpenList before := by
  rw [← resolveSpan?_eq_none_iff, ← occursIn_openCradle_iff]
  constructor
  · intro h
    rcases detect_cases h with ⟨_, _, no, -⟩ | ⟨no, -⟩ | ⟨-, span, cradle, list⟩
    · cases no
    · cases no
    · exact ⟨span, by simp [cradle], by simpa [InOpenList] using list⟩
  · rintro ⟨span, cradle, list⟩
    rw [InOpenList, ← Bool.or_eq_true] at list
    rw [detect, span]
    simp only [if_neg cradle, if_pos list]

theorem detect_ne_none_of_inOpenList {text : List Char} (h : InOpenList text) (after : List Char) :
    detect text after ≠ none := by
  intro none
  rw [InOpenList, ← Bool.or_eq_true] at h
  rw [detect] at none
  -- the string and the cradle are asked for before the list
  split at none
  · cases none
  · rw [if_pos h] at none
    split at none
    · cases none
    · cases none

/-- Typing in a parameter list never loses it: behind a place where the names of a parameter list are
offered, as long as no closing brace is typed and whatever stands behind the cursor, something is offered,
and again the names of the list just if no string of a `resolve` call is completed there and the text does
not end with `.cradle.`. -/
theorem typing_keeps_destructuring {before after typed : List Char}
    (inList : detect before after = some .destructuring) (unclosed : '\x7d' ∉ typed) (after' : List Char) :
    detect (before ++ typed) after' ≠ none ∧
      (detect (before ++ typed) after' = some .destructuring ↔
        ¬ CompletesString (before ++ typed) after' ∧ ¬ EndsWithCradle (before ++ typed)) := by
  obtain ⟨-, -, opened⟩ := detect_eq_destructuring_iff.mp inList
  have opened' := opened.append unclosed
  refine ⟨detect_ne_none_of_inOpenList opened' after', ?_⟩
  rw [detect_eq_destructuring_iff]
  tauto

/-- The list of a generator that is assigned to a name goes on behind a default value and on the next line.
In a string that is a default value something else is offered. -/
theorem typing_keeps_destructuring_generator :
    detect "const f = async function* (\x7ba".toList "\x7d)".toList = some .destructuring ∧
      detect "const f = async function* (\x7ba = 1,\n b".toList [] = some .destructuring ∧
      detect "const f = async function* (\x7ba = c.resolve('".toList ['k'] ≠ none := by
  have inList : detect "const f = async function* (\x7ba".toList "\x7d)".toList = some .destructuring := by
    decide
  have list : '\x7d' ∉ " = 1,\n b".toList := by decide
  have string : '\x7d' ∉ " = c.resolve('".toList := by decide
  obtain ⟨-, goesOn⟩ := typing_keeps_destructuring inList list []
  obtain ⟨inString, -⟩ := typing_keeps_destructuring inList string ['k']
  exact ⟨inList, goesOn.mpr ⟨resolveSpan?_eq_none_iff.mp (by decide), by decide⟩, inString⟩

end ContainerKeys.Cursor
