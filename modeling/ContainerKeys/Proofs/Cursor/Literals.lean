import ContainerKeys.Proofs.Cursor.Strings

/-!
# String literals around the cursor

Whether the cursor stands in the string of a `resolve` call is decided by the last quote before it and by the
character behind it. In a literal that is closed, completion and navigation therefore agree on the key at
every cursor.

* `resolveSpan?_eq_some_iff` — the replaced span, by the last quote.
* `detect_resolveString_by_last_quote` — when completion offers keys in a string, and in which span.
* `literal_found_at_every_cursor` — the cursors inside a closed literal.
-/

namespace ContainerKeys.Cursor

/-! ## The closing quote -/

theorem offsetOf?_eq (c : Char) (text : List Char) :
    offsetOf? c text = if c ∈ text then some (text.idxOf c) else none := by
  induction text with
  | nil => rfl
  | cons d rest ih =>
    rw [offsetOf?, ih]
    by_cases same : d = c
    · subst same
      simp
    · have other : ¬ c = d := fun h => same h.symm
      by_cases mem : c ∈ rest
      · simp [same, mem, List.idxOf_cons_ne]
      · simp [same, other, mem]

/-- The first occurrence of a character stands behind a text that does not hold it. -/
theorem offsetOf?_append_cons {c : Char} {front : List Char} (notMem : c ∉ front) (rest : List Char) :
    offsetOf? c (front ++ c :: rest) = some front.length := by
  rw [offsetOf?_eq, if_pos (by simp), List.idxOf_append_of_notMem notMem, List.idxOf_cons_self, Nat.add_zero]

/-- The span goes on to the next quote of the same kind, or to the end; there is none if the quote is next. -/
theorem resolveSpan?_of_open {before : List Char} {s : OpenString} (opened : openString? before = some s)
    (after : List Char) :
    resolveSpan? before after =
      if after.head? = some s.quote then none else some (s.start, before.length + after.idxOf s.quote) := by
  rw [resolveSpan?, opened]
  simp only [offsetOf?_eq]
  cases after with
  | nil => simp
  | cons c rest =>
    by_cases next : c = s.quote
    · simp [next]
    · have index : (c :: rest).idxOf s.quote = rest.idxOf s.quote + 1 := List.idxOf_cons_ne rest next
      have other : ¬ s.quote = c := fun h => next h.symm
      by_cases closed : s.quote ∈ rest
      · simp [next, closed, index]
      · simp [next, other, closed]

/-! ## The last quote -/

/-- The last quote of a text, between what stands before and behind it. -/
structure LastQuote (text head : List Char) (quote : Char) (rest : List Char) : Prop where
  split : text = head ++ quote :: rest
  quoted : isQuote quote = true
  unquoted : Unquoted rest

/-- A string is open at the end of a text if the last quote stands behind the start of a call. -/
theorem openString?_of_lastQuote {text head rest : List Char} {quote : Char}
    (last : LastQuote text head quote rest) (opens : OpensResolve head) :
    ∃ s, openString? text = some s ∧ s.quote = quote ∧ s.start = head.length + 1 := by
  rcases exists_openString?_of_quote opens last.quoted last.unquoted with ⟨typed, tail, -, -, opened⟩
  rw [← last.split] at opened
  exact ⟨_, opened, rfl, rfl⟩

theorem exists_lastQuote {text : List Char} {s : OpenString} (opened : openString? text = some s) :
    ∃ head rest, LastQuote text head s.quote rest ∧ OpensResolve head ∧ s.start = head.length + 1 := by
  rcases exists_openIn opened with ⟨head, tail, openIn⟩
  exact ⟨head, s.typed ++ tail, ⟨openIn.split, openIn.quoted, openIn.unquoted_rest⟩, openIn.opens, openIn.start⟩

theorem resolveSpan?_eq_some_iff {before after : List Char} {start stop : Nat} :
    resolveSpan? before after = some (start, stop) ↔
      ∃ head quote rest, LastQuote before head quote rest ∧ OpensResolve head ∧ after.head? ≠ some quote ∧
        start = head.length + 1 ∧ stop = before.length + after.idxOf quote := by
  constructor
  · intro span
    cases opened : openString? before with
    | none => simp [resolveSpan?, opened] at span
    | some s =>
      rcases exists_lastQuote opened with ⟨head, rest, last, opens, starts⟩
      rw [resolveSpan?_of_open opened] at span
      split at span
      · cases span
      · rename_i apart
        cases span
        exact ⟨head, s.quote, rest, last, opens, apart, starts, rfl⟩
  · rintro ⟨head, quote, rest, last, opens, apart, rfl, rfl⟩
    rcases openString?_of_lastQuote last opens with ⟨s, opened, rfl, starts⟩
    rw [resolveSpan?_of_open opened, if_neg apart, starts]

theorem detect_eq_resolveString_iff {before after : List Char} {start stop : Nat} :
    detect before after = some (.resolveString start stop) ↔
      resolveSpan? before after = some (start, stop) := by
  constructor
  · intro h
    rcases detect_cases h with ⟨_, _, same, span⟩ | ⟨no, -⟩ | ⟨no, -⟩
    · cases same
      exact span
    · cases no
    · cases no
  · intro span
    rw [detect, span]

/-- Keys are offered in a string just if the last quote before the cursor stands behind the start of a
`resolve` call and the text behind the cursor does not start with that quote. What is replaced starts behind
the last quote and ends at the next quote of that kind, or at the end of the text; so it encloses the cursor,
and there is no quote between its start and the cursor. -/
theorem detect_resolveString_by_last_quote (before after : List Char) :
    ((∃ start stop, detect before after = some (.resolveString start stop)) ↔
      ∃ head quote rest, LastQuote before head quote rest ∧ OpensResolve head ∧
        after.head? ≠ some quote) ∧
    ∀ start stop, detect before after = some (.resolveString start stop) →
      (∃ head quote rest, LastQuote before head quote rest ∧ start = head.length + 1 ∧
        stop = before.length + after.idxOf quote) ∧
      start ≤ before.length ∧ before.length ≤ stop ∧ stop ≤ before.length + after.length ∧
      Unquoted (before.drop start) := by
  simp only [detect_eq_resolveString_iff, resolveSpan?_eq_some_iff]
  constructor
  · constructor
    · rintro ⟨start, stop, head, quote, rest, last, opens, apart, -⟩
      exact ⟨head, quote, rest, last, opens, apart⟩
    · rintro ⟨head, quote, rest, last, opens, apart⟩
      exact ⟨_, _, head, quote, rest, last, opens, apart, rfl, rfl⟩
  · rintro start stop ⟨head, quote, rest, last, -, -, rfl, rfl⟩
    have length : before.length = head.length + 1 + rest.length := by
      rw [last.split, List.length_append, List.length_cons]
      omega
    have within : after.idxOf quote ≤ after.length := List.idxOf_le_length
    have behind : before.drop (head.length + 1) = rest := by
      rw [last.split, List.append_cons]
      exact List.drop_left' (by simp)
    refine ⟨⟨head, quote, rest, last, rfl, rfl⟩, by omega, by omega, by omega, ?_⟩
    rw [behind]
    exact last.unquoted

/-- The last quote opens the string although an earlier string is closed; the span ends at its own kind of
quote. -/
theorem detect_resolveString_by_last_quote_mixed :
    detect "f('x'); c.resolve( \"us".toList "er' \")".toList = some (.resolveString 20 26) ∧
      20 ≤ 22 ∧ 22 ≤ 26 ∧ Unquoted "us".toList := by
  have detected : detect "f('x'); c.resolve( \"us".toList "er' \")".toList = some (.resolveString 20 26) := by
    decide
  obtain ⟨-, spans⟩ := detect_resolveString_by_last_quote "f('x'); c.resolve( \"us".toList "er' \")".toList
  obtain ⟨-, start_le, le_stop, -, unquoted⟩ := spans 20 26 detected
  exact ⟨detected, start_le, le_stop, unquoted⟩

/-! ## Closed literals -/

theorem resolveKey?_of_closing {before more : List Char} {s : OpenString} (opened : openString? before = some s)
    (notMem : s.quote ∉ more) (nonempty : s.typed ++ more ≠ []) (rest : List Char) :
    resolveKey? before (more ++ s.quote :: rest) =
      some ⟨s.typed ++ more, s.start, s.start + (s.typed ++ more).length⟩ := by
  rw [resolveKey?, opened]
  simp only [offsetOf?_append_cons notMem, List.take_left, if_neg nonempty]

section

variable {head key rest : List Char} {quote : Char}

/-- A cursor inside a literal cuts its key in two. -/
theorem exists_cut_literal (head rest : List Char) (quote : Char) {i : Nat} (start_le : head.length + 1 ≤ i)
    (le_stop : i ≤ head.length + 1 + key.length) :
    ∃ typed more, key = typed ++ more ∧ i = (head ++ quote :: typed).length ∧
      head ++ quote :: (key ++ quote :: rest) = (head ++ quote :: typed) ++ (more ++ quote :: rest) := by
  refine ⟨key.take (i - (head.length + 1)), key.drop (i - (head.length + 1)),
    (List.take_append_drop _ _).symm, ?_, ?_⟩
  · rw [List.length_append, List.length_cons, List.length_take]
    omega
  · rw [List.append_assoc, List.cons_append, ← List.append_assoc (key.take _), List.take_append_drop]

variable {typed more : List Char} (opens : OpensResolve head) (quoted : isQuote quote = true)
  (unquoted : Unquoted (typed ++ more)) (oneLine : '\n' ∉ typed ++ more)

include quoted unquoted in
theorem quote_not_mem_more : quote ∉ more := by
  intro mem
  exact unquoted.not_mem quoted (List.mem_append_right typed mem)

include opens quoted unquoted oneLine

theorem openString?_in_literal :
    openString? (head ++ quote :: typed) = some ⟨quote, head.length + 1, typed⟩ := by
  apply openString?_of_quote opens quoted
  · exact fun c mem => unquoted c (List.mem_append_left more mem)
  · exact fun mem => oneLine (List.mem_append_left more mem)

theorem keyAt_in_literal (nonempty : typed ++ more ≠ []) :
    keyAt ((head ++ quote :: typed) ++ (more ++ quote :: rest)) (head ++ quote :: typed).length =
      some ⟨typed ++ more, head.length + 1, head.length + 1 + (typed ++ more).length⟩ := by
  have notMem := quote_not_mem_more quoted unquoted
  have opened := openString?_in_literal opens quoted unquoted oneLine
  exact keyAt_of_resolveKey? (resolveKey?_of_closing opened notMem nonempty rest)

/-- Inside the literal the whole key is replaced; behind its last character nothing is. -/
theorem resolveSpan?_in_literal :
    resolveSpan? (head ++ quote :: typed) (more ++ quote :: rest) =
      if more = [] then none
      else some (head.length + 1, head.length + 1 + (typed ++ more).length) := by
  have notMem := quote_not_mem_more quoted unquoted
  rw [resolveSpan?_of_open (openString?_in_literal opens quoted unquoted oneLine)]
  cases more with
  | nil => simp
  | cons c more =>
    have other : c ≠ quote := fun same => notMem (by rw [same]; exact List.mem_cons_self)
    rw [if_neg (by simpa using other), if_neg (List.cons_ne_nil c more),
      List.idxOf_append_of_notMem notMem, List.idxOf_cons_self, Nat.add_zero]
    congr 2
    simp only [List.length_append, List.length_cons]
    omega

end

theorem resolveSpan?_cut_literal {head key rest : List Char} {quote : Char} (opens : OpensResolve head)
    (quoted : isQuote quote = true) (unquoted : Unquoted key) (oneLine : '\n' ∉ key) {i : Nat}
    (start_le : head.length + 1 ≤ i) (le_stop : i ≤ head.length + 1 + key.length) :
    resolveSpan? ((head ++ quote :: (key ++ quote :: rest)).take i)
        ((head ++ quote :: (key ++ quote :: rest)).drop i) =
      if i = head.length + 1 + key.length then none
      else some (head.length + 1, head.length + 1 + key.length) := by
  rcases exists_cut_literal head rest quote start_le le_stop with ⟨typed, more, rfl, rfl, line⟩
  rw [line, List.take_left, List.drop_left, resolveSpan?_in_literal opens quoted unquoted oneLine]
  -- nothing of the key is left just at the last cursor
  have last : more = [] ↔ (head ++ quote :: typed).length = head.length + 1 + (typed ++ more).length := by
    rw [← List.length_eq_zero_iff]
    simp only [List.length_append, List.length_cons]
    omega
  simp only [last]

/-- In the literal of a `resolve` call, navigation finds the key at every cursor from its start to its end,
and completion replaces just the key at every cursor from its start on, but not at its end, where the literal
is closed. -/
theorem literal_found_at_every_cursor {head key : List Char} {quote : Char} (opens : OpensResolve head)
    (quoted : isQuote quote = true) (nonempty : key ≠ []) (unquoted : Unquoted key) (rest : List Char)
    {line : List Char} (split : line = head ++ quote :: (key ++ quote :: rest)) (oneLine : '\n' ∉ line)
    {start stop : Nat} (starts : start = head.length + 1) (stops : stop = start + key.length) :
    (∀ i : Nat, start ≤ i → i ≤ stop → keyAt line i = some ⟨key, start, stop⟩) ∧
    (∀ i : Nat, start ≤ i → i < stop →
      detect (line.take i) (line.drop i) = some (.resolveString start stop)) ∧
    ∀ a b, detect (line.take stop) (line.drop stop) ≠ some (.resolveString a b) := by
  have keyLine : '\n' ∉ key := by
    intro mem
    apply oneLine
    simp [split, mem]
  subst split starts stops
  refine ⟨?_, ?_, ?_⟩
  · intro i start_le le_stop
    rcases exists_cut_literal head rest quote start_le le_stop with ⟨typed, more, rfl, rfl, line⟩
    rw [line]
    exact keyAt_in_literal opens quoted unquoted keyLine nonempty
  · intro i start_le lt_stop
    rw [detect_eq_resolveString_iff, resolveSpan?_cut_literal opens quoted unquoted keyLine start_le (by omega),
      if_neg (by omega)]
  · intro a b
    rw [ne_eq, detect_eq_resolveString_iff,
      resolveSpan?_cut_literal opens quoted unquoted keyLine (by omega) (by omega), if_pos rfl]
    exact nofun

/-- A literal behind another string and blanks, with a cursor inside its key and one at the end. -/
theorem literal_found_at_every_cursor_blanks :
    keyAt "f('x'); c.resolve ( \"user\")".toList 23 = some ⟨"user".toList, 21, 25⟩ ∧
      detect "f('x'); c.resolve ( \"us".toList "er\")".toList = some (.resolveString 21 25) ∧
      detect "f('x'); c.resolve ( \"user".toList "\")".toList ≠ some (.resolveString 21 25) := by
  have opens : OpensResolve "f('x'); c.resolve ( ".toList :=
    ⟨"f('x'); c".toList, ".resolve ( ".toList,
      ⟨[' '], [' '], by decide, by decide, rfl⟩, rfl⟩
  have split : "f('x'); c.resolve ( \"user\")".toList =
      "f('x'); c.resolve ( ".toList ++ '\x22' :: ("user".toList ++ '\x22' :: ")".toList) := by decide
  obtain ⟨found, replaced, closed⟩ := literal_found_at_every_cursor opens (by decide) (by decide) (by decide) _
    split (by decide) (rfl : 21 = _) (rfl : 25 = _)
  exact ⟨found 23 (by decide) (by decide), replaced 23 (by decide) (by decide), closed 21 25⟩

end ContainerKeys.Cursor
