import ContainerKeys.Proofs.Attempts
import ContainerKeys.Proofs.Patterns
import ContainerKeys.Query

/-!
# Strings that are open at the cursor

The string of a `resolve` call is open at the end of a text if the last quote of the text stands right
behind the start of such a call.

* `exists_openIn`, `exists_openString?_of_quote` — both directions.
* `complete_round_trips` — a key that replaces the reported range is the key under the cursor behind it.
-/

namespace ContainerKeys.Cursor

open Text (Pattern isBlank)

/-! ## Parts of a text -/

/-- The part of a text between two others is cut out by its offsets. -/
theorem cut_append (before middle rest : List Char) :
    cut (before ++ (middle ++ rest)) (before.length, before.length + middle.length) = middle := by
  simp [cut]

theorem offsetIndex_natCast (length n : Nat) : Text.offsetIndex length n = min n length := by
  rw [Text.offsetIndex, if_neg (by omega), Int.toNat_natCast]

theorem sliceTo_natCast (line : List Char) (n : Nat) : Text.sliceTo line n = line.take n := by
  rw [Text.sliceTo, offsetIndex_natCast, ← List.take_eq_take_min]

theorem sliceFrom_natCast (line : List Char) (n : Nat) : Text.sliceFrom line n = line.drop n := by
  rw [Text.sliceFrom, offsetIndex_natCast, ← List.drop_eq_drop_min]

theorem sliceTo_append (before after : List Char) :
    Text.sliceTo (before ++ after) before.length = before := by
  rw [sliceTo_natCast, List.take_left]

theorem sliceFrom_append (before after : List Char) :
    Text.sliceFrom (before ++ after) before.length = after := by
  rw [sliceFrom_natCast, List.drop_left]

theorem not_mem_of_forall {p : Char → Bool} {text : List Char} {c : Char} (all : ∀ d ∈ text, p d = true)
    (other : p c = false) : c ∉ text := by
  intro mem
  rw [all c mem] at other
  cases other

/-- A beginning that does not hold a character of the text ends before it. -/
theorem length_le_of_not_mem {front rest taken later : List Char} {c : Char}
    (same : front ++ c :: rest = taken ++ later) (notMem : c ∉ taken) : taken.length ≤ front.length := by
  rcases List.append_eq_append_iff.mp same with ⟨more, rfl, shift⟩ | ⟨more, rfl, -⟩
  · cases more with
    | nil => simp
    | cons d more =>
      obtain ⟨rfl, -⟩ := List.cons.inj shift
      simp at notMem
  · simp

/-- A character that does not occur behind another stands no later. -/
theorem length_le_of_not_mem_rest {front front' rest rest' : List Char} {c c' : Char}
    (same : front ++ c :: rest = front' ++ c' :: rest') (notMem : c' ∉ rest) :
    front'.length ≤ front.length := by
  rcases List.append_eq_append_iff.mp same with ⟨more, rfl, shift⟩ | ⟨more, rfl, -⟩
  · cases more with
    | nil => simp
    | cons d more =>
      obtain ⟨-, rfl⟩ := List.cons.inj shift
      simp at notMem
  · simp

/-! ## The start of a call -/

/-- White space only, or nothing. -/
def Blanks (text : List Char) : Prop :=
  ∀ c ∈ text, isBlank c = true

instance (text : List Char) : Decidable (Blanks text) :=
  decidable_of_iff (text.all isBlank = true) List.all_eq_true

/-- The start of a `resolve` call, up to the place where its string begins. -/
def ResolveStart (call : List Char) : Prop :=
  ∃ first second, Blanks first ∧ Blanks second ∧ call = ".resolve".toList ++ (first ++ '(' :: second)

/-- The text ends with the start of a `resolve` call. -/
def OpensResolve (text : List Char) : Prop :=
  ∃ before call, ResolveStart call ∧ text = before ++ call

/-- No quote of either kind. -/
def Unquoted (text : List Char) : Prop :=
  ∀ c ∈ text, isQuote c = false

instance (text : List Char) : Decidable (Unquoted text) :=
  decidable_of_iff (text.all (fun c => !isQuote c) = true) (by simp [Unquoted])

/-- An open string is the start of a call, a quote and no further quote up to the end. -/
theorem takes_openResolve {offset : Nat} {taken rest : List Char} {groups : List (Nat × Nat)} :
    openResolve.Takes offset taken rest groups ↔
      ∃ call quote typed, ResolveStart call ∧ isQuote quote = true ∧ Unquoted typed ∧
        (rest = [] ∨ rest = ['\n']) ∧ taken = call ++ quote :: typed ∧
        groups = [(offset + call.length, offset + call.length + 1),
          (offset + call.length + 1, offset + call.length + 1 + typed.length)] := by
  simp only [openResolve, blanks, Pattern.takes_seq_of_silent, Pattern.takes_seq_group, Pattern.silent_text,
    Pattern.silent_many, Pattern.silent_char, Pattern.silent_few, Pattern.silent_atEnd, Pattern.takes_seq_nil,
    Pattern.takes_text, Pattern.takes_many, Pattern.takes_char, Pattern.takes_few, Pattern.takes_atEnd,
    and_true]
  constructor
  · rintro ⟨_, _, rfl, rfl, first, _, rfl, blankFirst, _, _, rfl, rfl, second, _, rfl, blankSecond,
      _, _, _, rfl, rfl, ⟨quote, rfl, quoted⟩, typed, _, _, rfl, rfl, unquoted,
      _, _, rfl, ⟨atEnd, rfl⟩, rfl, rfl⟩
    refine ⟨".resolve".toList ++ (first ++ '(' :: second), quote, typed,
      ⟨first, second, blankFirst, blankSecond, rfl⟩, quoted, by simpa [Unquoted] using unquoted, atEnd,
      by simp, ?_⟩
    simp only [String.reduceToList, List.length_append, List.length_cons, List.length_nil, List.cons.injEq,
      Prod.mk.injEq, and_true]
    omega
  · rintro ⟨_, quote, typed, ⟨first, second, blankFirst, blankSecond, rfl⟩, quoted, unquoted, atEnd, rfl,
      rfl⟩
    refine ⟨_, _, List.append_assoc _ _ _, rfl, first, _, List.append_assoc _ _ _, blankFirst, ['('], _,
      rfl, rfl, second, _, rfl, blankSecond, [quote], typed, _, rfl, ?_, ⟨quote, rfl, quoted⟩,
      typed, [], [], (List.append_nil _).symm, rfl, by simpa [Unquoted] using unquoted,
      [], [], rfl, ⟨atEnd, rfl⟩, rfl, rfl⟩
    simp only [String.reduceToList, List.length_append, List.length_cons, List.length_nil, List.cons.injEq,
      Prod.mk.injEq, and_true]
    omega

/-! ## The last quote -/

theorem Unquoted.not_mem {text : List Char} {quote : Char} (h : Unquoted text)
    (quoted : isQuote quote = true) : quote ∉ text := by
  intro mem
  rw [h quote mem] at quoted
  cases quoted

/-- A text has one last quote. -/
theorem last_quote_unique {head head' rest rest' : List Char} {quote quote' : Char}
    (same : head ++ quote :: rest = head' ++ quote' :: rest') (quoted : isQuote quote = true)
    (quoted' : isQuote quote' = true) (unquoted : Unquoted rest) (unquoted' : Unquoted rest') :
    head = head' ∧ quote = quote' ∧ rest = rest' := by
  have length : head.length = head'.length :=
    Nat.le_antisymm (length_le_of_not_mem_rest same.symm (unquoted'.not_mem quoted))
      (length_le_of_not_mem_rest same (unquoted.not_mem quoted'))
  obtain ⟨heads, tails⟩ := List.append_inj same length
  exact ⟨heads, List.cons.inj tails⟩

/-- The string is open at the end of a text: `head` ends with the start of a call, the quote follows it and
then no further quote. A line feed at the very end does not count as typed. -/
structure OpenString.OpenIn (s : OpenString) (text head tail : List Char) : Prop where
  opens : OpensResolve head
  quoted : isQuote s.quote = true
  unquoted : Unquoted s.typed
  atEnd : tail = [] ∨ tail = ['\n']
  split : text = head ++ s.quote :: (s.typed ++ tail)
  start : s.start = head.length + 1

theorem exists_openIn_of_find? {text : List Char} {m : Text.Match} (found : openResolve.find? text = some m) :
    ∃ s head tail, openString? text = some s ∧ s.OpenIn text head tail := by
  rcases Pattern.exists_occursAt_of_find? found with ⟨ahead, _, tail, occurs, -⟩
  rcases takes_openResolve.mp occurs.takes with
    ⟨call, quote, typed, start, quoted, unquoted, atEnd, rfl, groups⟩
  have split : text = (ahead ++ call) ++ quote :: (typed ++ tail) := by
    simpa using occurs.split
  have group₀ : m.group 0 = ((ahead ++ call).length, (ahead ++ call).length + 1) := by
    simp [Text.Match.group, groups]
  have group₁ : m.group 1 =
      ((ahead ++ call ++ [quote]).length, (ahead ++ call ++ [quote]).length + typed.length) := by
    simp [Text.Match.group, groups, Nat.add_assoc]
  have quoteCut : cut text (m.group 0) = [quote] := by
    rw [group₀, split]
    exact cut_append (ahead ++ call) [quote] (typed ++ tail)
  have typedCut : cut text (m.group 1) = typed := by
    rw [group₁, split, List.append_cons]
    exact cut_append (ahead ++ call ++ [quote]) typed tail
  refine ⟨⟨quote, (m.group 1).1, typed⟩, ahead ++ call, tail, ?_, ⟨ahead, call, start, rfl⟩, quoted,
    unquoted, atEnd, split, ?_⟩
  · rw [openString?, found, Option.bind_eq_bind, Option.bind_some, quoteCut, typedCut]
    rfl
  · simp [group₁, Nat.add_assoc]

theorem exists_openIn {text : List Char} {s : OpenString} (h : openString? text = some s) :
    ∃ head tail, s.OpenIn text head tail := by
  cases found : openResolve.find? text with
  | none => simp [openString?, found] at h
  | some m =>
    rcases exists_openIn_of_find? found with ⟨s', head, tail, h', opened⟩
    cases h.symm.trans h'
    exact ⟨head, tail, opened⟩

/-- In a text of one line, nothing stands behind what is typed. -/
theorem exists_openIn_of_line {line : List Char} {s : OpenString} (h : openString? line = some s)
    (oneLine : '\n' ∉ line) : ∃ head, s.OpenIn line head [] := by
  rcases exists_openIn h with ⟨head, tail, opened⟩
  rcases opened.atEnd with rfl | rfl
  · exact ⟨head, opened⟩
  · simp [opened.split] at oneLine

theorem OpenString.OpenIn.unquoted_rest {s : OpenString} {text head tail : List Char}
    (h : s.OpenIn text head tail) : Unquoted (s.typed ++ tail) := by
  intro c mem
  rcases List.mem_append.mp mem with typed | final
  · exact h.unquoted c typed
  · rcases h.atEnd with rfl | rfl
    · cases final
    · rw [List.mem_singleton.mp final]
      decide

/-- A string whose quote stands behind the start of a call is open as long as no quote follows. -/
theorem exists_openString?_of_quote {head rest : List Char} {quote : Char} (opens : OpensResolve head)
    (quoted : isQuote quote = true) (unquoted : Unquoted rest) :
    ∃ typed tail, rest = typed ++ tail ∧ (tail = [] ∨ tail = ['\n']) ∧
      openString? (head ++ quote :: rest) = some ⟨quote, head.length + 1, typed⟩ := by
  cases found : openResolve.find? (head ++ quote :: rest) with
  | none =>
    obtain ⟨ahead, call, start, rfl⟩ := opens
    have takes : openResolve.Takes ahead.length (call ++ quote :: rest) [] _ :=
      takes_openResolve.mpr ⟨call, quote, rest, start, quoted, unquoted, .inl rfl, rfl, rfl⟩
    exact absurd ⟨by simp, takes⟩ (Pattern.find?_eq_none_iff.mp found _ _ _ _)
  | some m =>
    rcases exists_openIn_of_find? found with ⟨s, head', tail, h, opened⟩
    obtain ⟨rfl, rfl, rfl⟩ :=
      last_quote_unique opened.split quoted opened.quoted unquoted opened.unquoted_rest
    exact ⟨s.typed, tail, rfl, opened.atEnd, by rw [h, ← opened.start]⟩

theorem openString?_of_quote {head typed : List Char} {quote : Char} (opens : OpensResolve head)
    (quoted : isQuote quote = true) (unquoted : Unquoted typed) (oneLine : '\n' ∉ typed) :
    openString? (head ++ quote :: typed) = some ⟨quote, head.length + 1, typed⟩ := by
  rcases exists_openString?_of_quote opens quoted unquoted with ⟨typed, tail, rfl, atEnd, opened⟩
  rcases atEnd with rfl | rfl
  · rw [List.append_nil]
    rwa [List.append_nil] at opened
  · simp at oneLine

/-! ## Replacing the string -/

theorem exists_of_offsetOf? {c : Char} {text : List Char} {n : Nat} (h : offsetOf? c text = some n) :
    ∃ before after, text = before ++ c :: after ∧ before.length = n := by
  induction text generalizing n with
  | nil => cases h
  | cons d rest ih =>
    rw [offsetOf?] at h
    split at h
    · rename_i same
      cases h
      exact ⟨[], rest, by rw [same, List.nil_append], rfl⟩
    · rcases Option.map_eq_some_iff.mp h with ⟨m, found, rfl⟩
      rcases ih found with ⟨before, after, rfl, rfl⟩
      exact ⟨d :: before, after, rfl, rfl⟩

/-- The replaced span starts behind the quote of the open string; it ends at the closing quote, or where the
text ends. -/
theorem exists_of_resolveSpan? {before after : List Char} {start stop : Nat}
    (h : resolveSpan? before after = some (start, stop)) :
    ∃ s dropped kept, openString? before = some s ∧ start = s.start ∧ after = dropped ++ kept ∧
      stop = before.length + dropped.length ∧ (kept = [] ∨ ∃ rest, kept = s.quote :: rest) := by
  rw [resolveSpan?] at h
  split at h
  · cases h
  · rename_i s opened
    split at h
    · cases h
    · rename_i n _ closed
      rcases exists_of_offsetOf? closed with ⟨dropped, rest, rfl, rfl⟩
      cases h
      exact ⟨s, dropped, s.quote :: rest, opened, rfl, rfl, rfl, .inr ⟨rest, rfl⟩⟩
    · cases h
      exact ⟨s, after, [], opened, rfl, (List.append_nil _).symm, rfl, .inl rfl⟩

/-- The contexts exclude one another in this order: a string, the cradle, a parameter list. -/
theorem detect_cases {before after : List Char} {context : Context}
    (h : detect before after = some context) :
    (∃ start stop, context = .resolveString start stop ∧
      resolveSpan? before after = some (start, stop)) ∨
    (context = .cradleDot ∧ resolveSpan? before after = none ∧ openCradle.occursIn before = true) ∨
    (context = .destructuring ∧ resolveSpan? before after = none ∧ openCradle.occursIn before = false ∧
      (openConstructor.occursIn before || openFunction.occursIn before) = true) := by
  rw [detect] at h
  split at h
  · rename_i start stop span
    cases h
    exact .inl ⟨start, stop, rfl, span⟩
  · rename_i span
    split at h
    · rename_i cradle
      cases h
      exact .inr (.inl ⟨rfl, span, cradle⟩)
    · rename_i cradle
      split at h
      · rename_i list
        cases h
        exact .inr (.inr ⟨rfl, span, by simpa using cradle, list⟩)
      · cases h

/-- The key ends where the text goes on with the closing quote, or where the text ends. -/
theorem resolveKey?_of_closed {before after : List Char} {s : OpenString} (opened : openString? before = some s)
    (closed : after = [] ∨ ∃ rest, after = s.quote :: rest) (nonempty : s.typed ≠ []) :
    resolveKey? before after = some ⟨s.typed, s.start, s.start + s.typed.length⟩ := by
  rw [resolveKey?, opened]
  rcases closed with rfl | ⟨rest, rfl⟩
  · simp [offsetOf?, nonempty]
  · simp [offsetOf?, nonempty]

theorem keyAt_of_resolveKey? {before after : List Char} {found : Found}
    (h : resolveKey? before after = some found) : keyAt (before ++ after) before.length = some found := by
  rw [keyAt, sliceTo_append, sliceFrom_append, h]

/-- A key that takes the place of the replaced text is found again by the cursor behind it. -/
theorem keyAt_replaced {before after key : List Char} {start stop : Nat}
    (h : resolveSpan? before after = some (start, stop)) (oneLine : '\n' ∉ before) (nonempty : key ≠ [])
    (unquoted : Unquoted key) (keyLine : '\n' ∉ key) :
    start ≤ before.length ∧ before.length ≤ stop ∧ stop ≤ (before ++ after).length ∧
      keyAt ((before ++ after).take start ++ key ++ (before ++ after).drop stop) (start + key.length) =
        some ⟨key, start, start + key.length⟩ := by
  rcases exists_of_resolveSpan? h with ⟨s, dropped, kept, open?, rfl, rfl, rfl, closed⟩
  rcases exists_openIn_of_line open? oneLine with ⟨head, opened⟩
  have split : before = head ++ [s.quote] ++ s.typed := by
    simpa using opened.split
  have length := congrArg List.length split
  simp only [List.length_append, List.length_singleton] at length
  refine ⟨by rw [opened.start]; omega, by omega, by simp, ?_⟩
  have head_eq : (before ++ (dropped ++ kept)).take s.start = head ++ [s.quote] := by
    rw [opened.start, split, List.append_assoc _ s.typed]
    exact List.take_left' (by simp)
  have tail_eq : (before ++ (dropped ++ kept)).drop (before.length + dropped.length) = kept := by
    rw [← List.append_assoc]
    exact List.drop_left' (by simp)
  have again : openString? (head ++ [s.quote] ++ key) = some ⟨s.quote, s.start, key⟩ := by
    rw [opened.start, List.append_assoc]
    exact openString?_of_quote opened.opens opened.quoted unquoted keyLine
  have behind : (head ++ [s.quote] ++ key).length = s.start + key.length := by
    rw [opened.start, List.length_append, List.length_append, List.length_singleton]
  have found := keyAt_of_resolveKey? (resolveKey?_of_closed again closed nonempty)
  rw [behind] at found
  rw [head_eq, tail_eq]
  exact found

end ContainerKeys.Cursor

namespace ContainerKeys.Index

open Cursor

theorem detect_of_completeIn {index : Index} {p : Position} {text : String} {completion : Completion}
    {start stop : Nat} (h : index.completeIn p text = some completion)
    (context : completion.context = .resolveString start stop) :
    detect (Text.sliceTo text.toList p.character) (Text.sliceFrom text.toList p.character) =
        some (.resolveString start stop) ∧
      completion.replaced = some ⟨⟨p.line, start⟩, ⟨p.line, stop⟩⟩ := by
  rcases Option.map_eq_some_iff.mp h with ⟨found, detected, rfl⟩
  cases context
  exact ⟨detected, rfl⟩

/-- Accepting a completion round-trips: a key that is put into the reported range is the key under the
cursor behind it, whether or not the string was closed. -/
theorem complete_round_trips (index : Index) (files : FileTree) (c : CursorAt) {line : String}
    {completion : Completion} {start stop : Nat} {key : List Char}
    (hline : (lineAt files c).outcome = .ok (some line))
    (complete : (index.complete files c).outcome = .ok (some completion))
    (context : completion.context = .resolveString start stop) (oneLine : '\n' ∉ line.toList)
    (nonempty : key ≠ []) (unquoted : Unquoted key) (keyLine : '\n' ∉ key) :
    completion.replaced = some ⟨⟨c.position.line, start⟩, ⟨c.position.line, stop⟩⟩ ∧
      start ≤ stop ∧ stop ≤ line.toList.length ∧
      keyAt (line.toList.take start ++ key ++ line.toList.drop stop) (start + key.length) =
        some ⟨key, start, start + key.length⟩ := by
  rw [Index.complete, Attempt.outcome_bind_eq_ok] at complete
  obtain ⟨_, same, complete⟩ := complete
  cases hline.symm.trans same
  have completed : index.completeIn c.position line = some completion := Except.ok.inj complete
  obtain ⟨detected, replaced⟩ := detect_of_completeIn completed context
  have before : '\n' ∉ Text.sliceTo line.toList c.position.character :=
    fun h => oneLine (List.mem_of_mem_take h)
  rcases detect_cases detected with ⟨start, stop, same, span⟩ | ⟨no, -⟩ | ⟨no, -⟩
  · cases same
    have found := keyAt_replaced span before nonempty unquoted keyLine
    rw [Text.sliceTo_append_sliceFrom] at found
    obtain ⟨start_le, le_stop, stop_le, key_eq⟩ := found
    exact ⟨replaced, Nat.le_trans start_le le_stop, stop_le, key_eq⟩
  · cases no
  · cases no

/-- A cursor in an open string, behind its second letter. -/
def inOpenString : CursorAt :=
  ⟨"a.js", ⟨4, 22⟩, some "f('x'); c.resolve( \"user"⟩

theorem complete_inOpenString (files : FileTree) :
    (Index.empty.complete files inOpenString).outcome =
      .ok (some ⟨.resolveString 20 24, some ⟨⟨4, 20⟩, ⟨4, 24⟩⟩, Index.empty.sortedKeys⟩) := by
  rfl

theorem complete_round_trips_inOpenString :
    keyAt "f('x'); c.resolve( \"userStore".toList 29 = some ⟨"userStore".toList, 20, 29⟩ := by
  have unquoted : Unquoted "userStore".toList := by
    intro q mem
    have all : "userStore".toList.all (fun q => !isQuote q) = true := by decide
    simpa using List.all_eq_true.mp all q mem
  obtain ⟨-, -, -, found⟩ := complete_round_trips .empty { root := .folder [], cwd := none }
    inOpenString rfl (complete_inOpenString _) rfl (by decide) (by decide) unquoted (by decide)
  exact found

end ContainerKeys.Index
