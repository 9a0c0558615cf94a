import ContainerKeys.Text.Pattern
import Mathlib.Data.List.Basic

/-!
# What patterns match

`Pattern.Takes` says what a pattern can take from a place on, without a word about the order in which its
ways to match are tried. The matcher finds one of these ways, and fails only where no way lets the rest of
the match succeed.

* `Pattern.exists_takes_of_exec`, `Pattern.next_of_exec_eq_none` — the matcher and `Takes`.
* `Pattern.Takes.of_endFree` — a pattern without an end anchor takes what it takes whatever follows.
* `Pattern.exists_occursAt_of_find?`, `Pattern.find?_eq_none_iff` — the search and `Takes`: the match that
  is found starts no later than any other.
* `Pattern.findAllFrom_append` — the search for all matches, part by part.
-/

namespace ContainerKeys.Text

/-! ## Repetition -/

section Repetition

variable {α : Type} {p : Char → Bool} {next : Nat → List Char → Option α} {n : Nat} {text : List Char}

theorem exists_of_takeMany {r : α} (h : takeMany p next n text = some r) :
    ∃ taken rest, text = taken ++ rest ∧ (∀ c ∈ taken, p c = true) ∧
      next (n + taken.length) rest = some r := by
  induction text generalizing n with
  | nil => exact ⟨[], [], rfl, by simp, h⟩
  | cons c rest ih =>
    rw [takeMany] at h
    by_cases hc : p c = true
    · rw [if_pos hc] at h
      split at h
      · rename_i longer
        rcases ih (longer.trans h) with ⟨taken, left, rfl, all, found⟩
        refine ⟨c :: taken, left, rfl, by simpa [hc] using all, ?_⟩
        rw [List.length_cons, Nat.add_comm taken.length, ← Nat.add_assoc]
        exact found
      · exact ⟨[], c :: rest, rfl, by simp, h⟩
    · rw [if_neg hc] at h
      exact ⟨[], c :: rest, rfl, by simp, h⟩

theorem exists_of_takeFew {r : α} (h : takeFew p next n text = some r) :
    ∃ taken rest, text = taken ++ rest ∧ (∀ c ∈ taken, p c = true) ∧
      next (n + taken.length) rest = some r := by
  induction text generalizing n with
  | nil => exact ⟨[], [], rfl, by simp, h⟩
  | cons c rest ih =>
    rw [takeFew] at h
    split at h
    · rename_i now
      exact ⟨[], c :: rest, rfl, by simp, now.trans h⟩
    · by_cases hc : p c = true
      · rw [if_pos hc] at h
        rcases ih h with ⟨taken, left, rfl, all, found⟩
        refine ⟨c :: taken, left, rfl, by simpa [hc] using all, ?_⟩
        rw [List.length_cons, Nat.add_comm taken.length, ← Nat.add_assoc]
        exact found
      · rw [if_neg hc] at h
        cases h

/-- Many characters are taken in vain only if no number of them will do. -/
theorem next_of_takeMany {taken rest : List Char} (h : takeMany p next n (taken ++ rest) = none)
    (all : ∀ c ∈ taken, p c = true) : next (n + taken.length) rest = none := by
  induction taken generalizing n with
  | nil =>
    cases rest with
    | nil => exact h
    | cons c rest =>
      rw [List.nil_append, takeMany] at h
      split at h
      · split at h
        · cases h
        · exact h
      · exact h
  | cons c taken ih =>
    rw [List.forall_mem_cons] at all
    rw [List.cons_append, takeMany, if_pos all.1] at h
    split at h
    · cases h
    · rename_i longer
      rw [List.length_cons, Nat.add_comm taken.length, ← Nat.add_assoc]
      exact ih longer all.2

theorem next_of_takeFew {taken rest : List Char} (h : takeFew p next n (taken ++ rest) = none)
    (all : ∀ c ∈ taken, p c = true) : next (n + taken.length) rest = none := by
  induction taken generalizing n with
  | nil =>
    cases rest with
    | nil => exact h
    | cons c rest =>
      rw [List.nil_append, takeFew] at h
      split at h
      · cases h
      · rename_i now
        exact now
  | cons c taken ih =>
    rw [List.forall_mem_cons] at all
    rw [List.cons_append, takeFew] at h
    split at h
    · cases h
    · rw [if_pos all.1] at h
      rw [List.length_cons, Nat.add_comm taken.length, ← Nat.add_assoc]
      exact ih h all.2

/-- If the match can go on where the run of characters ends, the whole run is taken. -/
theorem takeMany_run {run rest : List Char} {r : α} (all : ∀ c ∈ run, p c = true)
    (stops : ∀ c ∈ rest.head?, p c = false) (h : next (n + run.length) rest = some r) :
    takeMany p next n (run ++ rest) = some r := by
  induction run generalizing n with
  | nil =>
    cases rest with
    | nil => exact h
    | cons c rest =>
      have stop : p c = false := stops c rfl
      rw [List.nil_append, takeMany, if_neg (by rw [stop]; exact Bool.false_ne_true)]
      exact h
  | cons c run ih =>
    rw [List.forall_mem_cons] at all
    rw [List.length_cons, Nat.add_comm run.length, ← Nat.add_assoc] at h
    rw [List.cons_append, takeMany, if_pos all.1, ih all.2 h]

end Repetition

namespace Pattern

/-! ## What a pattern can take -/

/-- From an offset on, the pattern can take the text `taken` where `rest` follows it, and notes the spans
`groups`. -/
def Takes : Pattern → Nat → List Char → List Char → List (Nat × Nat) → Prop
  | .empty, _, taken, _, groups => taken = [] ∧ groups = []
  | .char p, _, taken, _, groups => (∃ c, taken = [c] ∧ p c = true) ∧ groups = []
  | .many p, _, taken, _, groups => (∀ c ∈ taken, p c = true) ∧ groups = []
  | .few p, _, taken, _, groups => (∀ c ∈ taken, p c = true) ∧ groups = []
  | .andThen a b, offset, taken, rest, groups =>
    ∃ first second here later, taken = first ++ second ∧ groups = here ++ later ∧
      a.Takes offset first (second ++ rest) here ∧ b.Takes (offset + first.length) second rest later
  | .orElse a b, offset, taken, rest, groups =>
    a.Takes offset taken rest groups ∨ b.Takes offset taken rest groups
  | .atStart, offset, taken, _, groups => offset = 0 ∧ taken = [] ∧ groups = []
  | .atEnd, _, taken, rest, groups => (rest = [] ∨ rest = ['\n']) ∧ taken = [] ∧ groups = []
  | .group a, offset, taken, rest, groups =>
    ∃ inner, groups = inner ++ [(offset, offset + taken.length)] ∧ a.Takes offset taken rest inner

variable {α : Type} {p : Pattern}

/-- The place after a text was taken and spans were noted. -/
def placeAfter (place : Place) (taken rest : List Char) (groups : List (Nat × Nat)) : Place :=
  ⟨place.offset + taken.length, rest, place.groups ++ groups⟩

/-- The matcher takes what the pattern can take. -/
theorem exists_takes_of_exec {place : Place} {next : Place → Option α} {r : α}
    (h : p.exec place next = .some r) :
    ∃ taken rest groups, place.rest = taken ++ rest ∧ p.Takes place.offset taken rest groups ∧
      next (placeAfter place taken rest groups) = .some r := by
  induction p generalizing place next with
  | empty => exact ⟨[], place.rest, [], rfl, ⟨rfl, rfl⟩, by simpa [exec, placeAfter] using h⟩
  | char p =>
    rw [exec] at h
    split at h
    · cases h
    · rename_i c rest hrest
      split at h
      · rename_i hc
        exact ⟨[c], rest, [], hrest, ⟨⟨c, rfl, hc⟩, rfl⟩, by simpa [placeAfter] using h⟩
      · cases h
  | many p =>
    rcases exists_of_takeMany h with ⟨taken, rest, hrest, all, found⟩
    exact ⟨taken, rest, [], hrest, ⟨all, rfl⟩, by simpa [placeAfter] using found⟩
  | few p =>
    rcases exists_of_takeFew h with ⟨taken, rest, hrest, all, found⟩
    exact ⟨taken, rest, [], hrest, ⟨all, rfl⟩, by simpa [placeAfter] using found⟩
  | andThen a b iha ihb =>
    rcases iha h with ⟨first, rest, here, hrest, takesFirst, h⟩
    rcases ihb h with ⟨second, rest, later, rfl, takesSecond, h⟩
    refine ⟨first ++ second, rest, here ++ later, by rw [hrest, List.append_assoc],
      ⟨first, second, here, later, rfl, rfl, takesFirst, takesSecond⟩, ?_⟩
    simpa [placeAfter, Nat.add_assoc] using h
  | orElse a b iha ihb =>
    rw [exec] at h
    split at h
    · rename_i first
      rcases iha (first.trans h) with ⟨taken, rest, groups, hrest, takes, found⟩
      exact ⟨taken, rest, groups, hrest, Or.inl takes, found⟩
    · rcases ihb h with ⟨taken, rest, groups, hrest, takes, found⟩
      exact ⟨taken, rest, groups, hrest, Or.inr takes, found⟩
  | atStart =>
    rw [exec] at h
    split at h
    · rename_i start
      exact ⟨[], place.rest, [], rfl, ⟨start, rfl, rfl⟩, by simpa [placeAfter] using h⟩
    · cases h
  | atEnd =>
    rw [exec] at h
    split at h
    · rename_i final
      exact ⟨[], place.rest, [], rfl, ⟨final, rfl, rfl⟩, by simpa [placeAfter] using h⟩
    · cases h
  | group a ih =>
    rcases ih h with ⟨taken, rest, inner, hrest, takes, found⟩
    exact ⟨taken, rest, _, hrest, ⟨inner, rfl, takes⟩, by simpa [placeAfter] using found⟩

/-- Where the matcher fails, no way to match lets the rest succeed. -/
theorem next_of_exec_eq_none {place : Place} {next : Place → Option α} (h : p.exec place next = none)
    {taken rest : List Char} {groups : List (Nat × Nat)} (hrest : place.rest = taken ++ rest)
    (takes : p.Takes place.offset taken rest groups) :
    next (placeAfter place taken rest groups) = none := by
  induction p generalizing place next taken rest groups with
  | empty =>
    obtain ⟨rfl, rfl⟩ := takes
    rw [List.nil_append] at hrest
    simpa [exec, placeAfter, ← hrest] using h
  | char p =>
    obtain ⟨⟨c, rfl, hc⟩, rfl⟩ := takes
    rw [exec, hrest, List.singleton_append] at h
    simpa [placeAfter, hc] using h
  | many p =>
    obtain ⟨all, rfl⟩ := takes
    rw [exec, hrest] at h
    simpa [placeAfter] using next_of_takeMany h all
  | few p =>
    obtain ⟨all, rfl⟩ := takes
    rw [exec, hrest] at h
    simpa [placeAfter] using next_of_takeFew h all
  | andThen a b iha ihb =>
    obtain ⟨first, second, here, later, rfl, rfl, takesFirst, takesSecond⟩ := takes
    rw [List.append_assoc] at hrest
    have found := ihb (iha h hrest takesFirst) rfl takesSecond
    simpa [placeAfter, Nat.add_assoc] using found
  | orElse a b iha ihb =>
    rw [exec] at h
    split at h
    · cases h
    · rename_i first
      rcases takes with takes | takes
      · exact iha first hrest takes
      · exact ihb h hrest takes
  | atStart =>
    obtain ⟨start, rfl, rfl⟩ := takes
    rw [List.nil_append] at hrest
    rw [exec, if_pos start] at h
    simpa [placeAfter, ← hrest] using h
  | atEnd =>
    obtain ⟨final, rfl, rfl⟩ := takes
    rw [List.nil_append] at hrest
    rw [exec, hrest, if_pos final] at h
    simpa [placeAfter, ← hrest] using h
  | group a ih =>
    obtain ⟨inner, rfl, takes⟩ := takes
    simpa [placeAfter] using ih h hrest takes

/-! ## Derived patterns -/

section Derived

variable {offset : Nat} {taken rest : List Char} {groups : List (Nat × Nat)}

@[simp] theorem takes_seq_nil : (seq []).Takes offset taken rest groups ↔ taken = [] ∧ groups = [] :=
  Iff.rfl

theorem takes_seq_cons {ps : List Pattern} :
    (seq (p :: ps)).Takes offset taken rest groups ↔
      ∃ first second here later, taken = first ++ second ∧ groups = here ++ later ∧
        p.Takes offset first (second ++ rest) here ∧
        (seq ps).Takes (offset + first.length) second rest later :=
  Iff.rfl

@[simp] theorem takes_many {q : Char → Bool} :
    (many q).Takes offset taken rest groups ↔ (∀ c ∈ taken, q c = true) ∧ groups = [] :=
  Iff.rfl

@[simp] theorem takes_few {q : Char → Bool} :
    (few q).Takes offset taken rest groups ↔ (∀ c ∈ taken, q c = true) ∧ groups = [] :=
  Iff.rfl

@[simp] theorem takes_char {q : Char → Bool} :
    (char q).Takes offset taken rest groups ↔ (∃ c, taken = [c] ∧ q c = true) ∧ groups = [] :=
  Iff.rfl

@[simp] theorem takes_atEnd :
    atEnd.Takes offset taken rest groups ↔
      (rest = [] ∨ rest = ['\n']) ∧ taken = [] ∧ groups = [] :=
  Iff.rfl

@[simp] theorem takes_atStart :
    atStart.Takes offset taken rest groups ↔ offset = 0 ∧ taken = [] ∧ groups = [] :=
  Iff.rfl

@[simp] theorem takes_orElse {a b : Pattern} :
    (orElse a b).Takes offset taken rest groups ↔
      a.Takes offset taken rest groups ∨ b.Takes offset taken rest groups :=
  Iff.rfl

@[simp] theorem takes_maybe :
    (maybe p).Takes offset taken rest groups ↔
      p.Takes offset taken rest groups ∨ taken = [] ∧ groups = [] :=
  Iff.rfl

@[simp] theorem takes_text {s : String} :
    (text s).Takes offset taken rest groups ↔ taken = s.toList ∧ groups = [] := by
  unfold text
  induction s.toList generalizing offset taken groups with
  | nil => exact Iff.rfl
  | cons c cs ih =>
    rw [List.map_cons, takes_seq_cons]
    constructor
    · rintro ⟨first, second, here, later, rfl, rfl, ⟨⟨d, rfl, hd⟩, rfl⟩, takes⟩
      obtain ⟨rfl, rfl⟩ := ih.mp takes
      rw [beq_iff_eq.mp hd]
      exact ⟨rfl, rfl⟩
    · rintro ⟨rfl, rfl⟩
      exact ⟨[c], cs, [], [], rfl, rfl, ⟨⟨c, rfl, beq_self_eq_true c⟩, rfl⟩, ih.mpr ⟨rfl, rfl⟩⟩

@[simp] theorem takes_some {q : Char → Bool} :
    (some q).Takes offset taken rest groups ↔
      taken ≠ [] ∧ (∀ c ∈ taken, q c = true) ∧ groups = [] := by
  constructor
  · rintro ⟨first, second, here, later, rfl, rfl, ⟨⟨c, rfl, hc⟩, rfl⟩, all, rfl⟩
    exact ⟨by simp, by simpa [hc] using all, rfl⟩
  · rintro ⟨ne, all, rfl⟩
    cases taken with
    | nil => exact absurd rfl ne
    | cons c rest =>
      rw [List.forall_mem_cons] at all
      exact ⟨[c], rest, [], [], rfl, rfl, ⟨⟨c, rfl, all.1⟩, rfl⟩, all.2, rfl⟩

/-! ## Patterns that note no spans -/

/-- The pattern notes no spans. -/
def Silent : Pattern → Bool
  | .andThen a b => a.Silent && b.Silent
  | .orElse a b => a.Silent && b.Silent
  | .group _ => false
  | .empty => true
  | .char _ => true
  | .many _ => true
  | .few _ => true
  | .atStart => true
  | .atEnd => true

theorem Takes.groups_eq_nil (h : p.Takes offset taken rest groups) (silent : p.Silent = true) :
    groups = [] := by
  induction p generalizing offset taken rest groups with
  | empty | char | many | few => exact h.2
  | atStart | atEnd => exact h.2.2
  | andThen a b iha ihb =>
    rw [Silent, Bool.and_eq_true] at silent
    obtain ⟨first, second, here, later, -, rfl, takesFirst, takesSecond⟩ := h
    rw [iha takesFirst silent.1, ihb takesSecond silent.2, List.append_nil]
  | orElse a b iha ihb =>
    rw [Silent, Bool.and_eq_true] at silent
    rcases h with h | h
    · exact iha h silent.1
    · exact ihb h silent.2
  | group a => cases silent

-- `(rfl)` leaves these to `simp` alone: as rules of `dsimp` they change the shape in which a sequence of
-- parts unfolds.
@[simp] theorem silent_char {q : Char → Bool} : (char q).Silent = true := (rfl)

@[simp] theorem silent_few {q : Char → Bool} : (few q).Silent = true := (rfl)

@[simp] theorem silent_many {q : Char → Bool} : (many q).Silent = true := (rfl)

@[simp] theorem silent_some {q : Char → Bool} : (some q).Silent = true := by
  rw [some, Silent, silent_char, silent_many, Bool.and_true]

@[simp] theorem silent_atStart : atStart.Silent = true := (rfl)

@[simp] theorem silent_atEnd : atEnd.Silent = true := (rfl)

@[simp] theorem silent_seq {ps : List Pattern} : (seq ps).Silent = ps.all Silent := by
  induction ps with
  | nil => rw [seq, List.foldr_nil, Silent, List.all_nil]
  | cons p ps ih => rw [List.all_cons, ← ih, seq, List.foldr_cons, Silent, ← seq]

@[simp] theorem silent_text {s : String} : (text s).Silent = true := by
  rw [text, silent_seq, List.all_map]
  exact List.all_eq_true.mpr fun _ _ => rfl

@[simp] theorem silent_orElse {a b : Pattern} : (orElse a b).Silent = (a.Silent && b.Silent) := (rfl)

@[simp] theorem silent_maybe : (maybe p).Silent = p.Silent := by
  rw [maybe, silent_orElse, show empty.Silent = true from rfl, Bool.and_true]

theorem takes_seq_of_silent {ps : List Pattern} (silent : p.Silent = true) :
    (seq (p :: ps)).Takes offset taken rest groups ↔
      ∃ first second, taken = first ++ second ∧ p.Takes offset first (second ++ rest) [] ∧
        (seq ps).Takes (offset + first.length) second rest groups := by
  rw [takes_seq_cons]
  constructor
  · rintro ⟨first, second, here, later, rfl, rfl, takesFirst, takesSecond⟩
    cases takesFirst.groups_eq_nil silent
    exact ⟨first, second, rfl, takesFirst, takesSecond⟩
  · rintro ⟨first, second, rfl, takesFirst, takesSecond⟩
    exact ⟨first, second, [], groups, rfl, rfl, takesFirst, takesSecond⟩

/-- A noted span and what follows it, in a sequence. -/
theorem takes_seq_group {ps : List Pattern} (silent : p.Silent = true) :
    (seq (group p :: ps)).Takes offset taken rest groups ↔
      ∃ first second later, taken = first ++ second ∧ groups = (offset, offset + first.length) :: later ∧
        p.Takes offset first (second ++ rest) [] ∧
        (seq ps).Takes (offset + first.length) second rest later := by
  rw [takes_seq_cons]
  constructor
  · rintro ⟨first, second, _, later, rfl, rfl, ⟨inner, rfl, takesFirst⟩, takesSecond⟩
    cases takesFirst.groups_eq_nil silent
    exact ⟨first, second, later, rfl, rfl, takesFirst, takesSecond⟩
  · rintro ⟨first, second, later, rfl, rfl, takesFirst, takesSecond⟩
    exact ⟨first, second, [_], later, rfl, rfl, ⟨[], rfl, takesFirst⟩, takesSecond⟩

/-! ## Patterns that look at nothing behind them -/

/-- The pattern does not ask where the text ends. -/
def EndFree : Pattern → Bool
  | .andThen a b => a.EndFree && b.EndFree
  | .orElse a b => a.EndFree && b.EndFree
  | .group a => a.EndFree
  | .atEnd => false
  | .empty => true
  | .char _ => true
  | .many _ => true
  | .few _ => true
  | .atStart => true

/-- What such a pattern takes, it takes whatever follows. -/
theorem Takes.of_endFree (h : p.Takes offset taken rest groups) (free : p.EndFree = true)
    (rest' : List Char) : p.Takes offset taken rest' groups := by
  induction p generalizing offset taken rest rest' groups with
  | empty | char | many | few | atStart => exact h
  | atEnd => cases free
  | andThen a b iha ihb =>
    rw [EndFree, Bool.and_eq_true] at free
    obtain ⟨first, second, here, later, rfl, rfl, takesFirst, takesSecond⟩ := h
    exact ⟨first, second, here, later, rfl, rfl, iha takesFirst free.1 _, ihb takesSecond free.2 _⟩
  | orElse a b iha ihb =>
    rw [EndFree, Bool.and_eq_true] at free
    rcases h with h | h
    · exact .inl (iha h free.1 rest')
    · exact .inr (ihb h free.2 rest')
  | group a ih =>
    obtain ⟨inner, rfl, takes⟩ := h
    exact ⟨inner, rfl, ih takes free rest'⟩

end Derived

/-! ## Matches -/

variable {offset : Nat} {text : List Char} {m : Match}

theorem exists_takes_of_matchAt (h : p.matchAt offset text = .some m) :
    ∃ taken rest, text = taken ++ rest ∧ p.Takes offset taken rest m.groups ∧
      m.start = offset ∧ m.stop = offset + taken.length := by
  rcases exists_takes_of_exec h with ⟨taken, rest, groups, hrest, takes, found⟩
  cases found
  exact ⟨taken, rest, hrest, by simpa [placeAfter] using takes, rfl, rfl⟩

theorem matchAt_ne_none {taken rest : List Char} {groups : List (Nat × Nat)}
    (takes : p.Takes offset taken rest groups) : p.matchAt offset (taken ++ rest) ≠ none := by
  intro h
  have := next_of_exec_eq_none h rfl takes
  cases this

/-- The pattern can take `taken` where it stands in a text: behind `before` and ahead of `rest`. -/
structure OccursAt (p : Pattern) (text before taken rest : List Char) (groups : List (Nat × Nat)) :
    Prop where
  split : text = before ++ (taken ++ rest)
  takes : p.Takes before.length taken rest groups

/-- Where there is no match at a place, another one from there on starts behind it. -/
theorem OccursAt.later_of_matchAt {ahead before taken rest : List Char} {groups : List (Nat × Nat)}
    (occurs : p.OccursAt (ahead ++ text) before taken rest groups)
    (nothing : p.matchAt ahead.length text = none) (le : ahead.length ≤ before.length) :
    ahead.length < before.length := by
  rcases Nat.lt_or_eq_of_le le with lt | eq
  · exact lt
  · obtain ⟨rfl, same⟩ := List.append_inj occurs.split eq
    rw [same] at nothing
    exact absurd nothing (matchAt_ne_none occurs.takes)

/-- A search that starts behind `ahead` gives a match that starts no later than any other from there
on. -/
theorem exists_occursAt_of_findFrom (ahead : List Char) (h : p.findFrom ahead.length text = .some m) :
    ∃ before taken rest, p.OccursAt (ahead ++ text) before taken rest m.groups ∧
      m.start = before.length ∧ m.stop = before.length + taken.length ∧
      ∀ before' taken' rest' groups', p.OccursAt (ahead ++ text) before' taken' rest' groups' →
        ahead.length ≤ before'.length → before.length ≤ before'.length := by
  induction text generalizing ahead with
  | nil =>
    rcases exists_takes_of_matchAt h with ⟨taken, rest, hrest, takes, start, stop⟩
    exact ⟨ahead, taken, rest, ⟨by rw [hrest], takes⟩, start, stop, fun _ _ _ _ _ le => le⟩
  | cons c text ih =>
    rw [findFrom] at h
    split at h
    · rename_i here
      rcases exists_takes_of_matchAt (here.trans h) with ⟨taken, rest, hrest, takes, start, stop⟩
      exact ⟨ahead, taken, rest, ⟨by rw [hrest], takes⟩, start, stop, fun _ _ _ _ _ le => le⟩
    · rename_i nothing
      have longer : ahead.length + 1 = (ahead ++ [c]).length := by simp
      rw [longer] at h
      rcases ih _ h with ⟨before, taken, rest, occurs, start, stop, first⟩
      rw [List.append_assoc, List.singleton_append] at occurs first
      refine ⟨before, taken, rest, occurs, start, stop, ?_⟩
      intro before' taken' rest' groups' occurs' le
      apply first before' taken' rest' groups' occurs'
      rw [← longer]
      exact occurs'.later_of_matchAt nothing le

theorem findFrom_ne_none (ahead : List Char) {before taken rest : List Char} {groups : List (Nat × Nat)}
    (occurs : p.OccursAt (ahead ++ text) before taken rest groups)
    (le : ahead.length ≤ before.length) : p.findFrom ahead.length text ≠ none := by
  induction text generalizing ahead with
  | nil =>
    obtain ⟨rfl, same⟩ : ahead = before ∧ [] = taken ++ rest := by
      have whole := occurs.split
      have length := congrArg List.length whole
      simp only [List.append_nil, List.length_append] at length
      exact List.append_inj whole (by omega)
    rw [findFrom, same]
    exact matchAt_ne_none occurs.takes
  | cons c text ih =>
    rw [findFrom]
    split
    · exact Option.some_ne_none _
    · rename_i nothing
      have longer : ahead.length + 1 = (ahead ++ [c]).length := by simp
      rw [longer]
      apply ih
      · rwa [List.append_assoc, List.singleton_append]
      · rw [← longer]
        exact occurs.later_of_matchAt nothing le

/-- The match that is found starts no later than any other. -/
theorem exists_occursAt_of_find? (h : p.find? text = .some m) :
    ∃ before taken rest, p.OccursAt text before taken rest m.groups ∧
      m.start = before.length ∧ m.stop = before.length + taken.length ∧
      ∀ before' taken' rest' groups', p.OccursAt text before' taken' rest' groups' →
        before.length ≤ before'.length := by
  rcases exists_occursAt_of_findFrom [] h with
    ⟨before, taken, rest, occurs, start, stop, first⟩
  refine ⟨before, taken, rest, occurs, start, stop, ?_⟩
  intro before' taken' rest' groups' occurs'
  exact first before' taken' rest' groups' occurs' (Nat.zero_le _)

/-- A match is found wherever there is one. -/
theorem find?_eq_none_iff :
    p.find? text = none ↔ ∀ before taken rest groups, ¬ p.OccursAt text before taken rest groups := by
  constructor
  · intro h before taken rest groups occurs
    exact findFrom_ne_none [] occurs (Nat.zero_le _) h
  · intro h
    cases found : p.find? text with
    | none => rfl
    | some m =>
      rcases exists_occursAt_of_find? found with ⟨before, taken, rest, occurs, -⟩
      exact absurd occurs (h before taken rest m.groups)

theorem occursIn_iff :
    p.occursIn text = true ↔ ∃ before taken rest groups, p.OccursAt text before taken rest groups := by
  rw [occursIn, Option.isSome_iff_ne_none, ne_eq, find?_eq_none_iff]
  simp only [not_forall, not_not]

/-! ## All matches -/

theorem exec_text {s : String} {rest : List Char} {groups : List (Nat × Nat)} {next : Place → Option α} :
    (Pattern.text s).exec ⟨offset, s.toList ++ rest, groups⟩ next =
      next ⟨offset + s.toList.length, rest, groups⟩ := by
  unfold Pattern.text
  induction s.toList generalizing offset with
  | nil => rfl
  | cons c cs ih =>
    rw [List.length_cons, Nat.add_comm cs.length, ← Nat.add_assoc, ← ih]
    simp [seq, exec]

theorem exec_some_run {q : Char → Bool} {run rest : List Char} {groups : List (Nat × Nat)}
    {next : Place → Option α} {r : α} (nonempty : run ≠ []) (all : ∀ c ∈ run, q c = true)
    (stops : ∀ c ∈ rest.head?, q c = false) (h : next ⟨offset + run.length, rest, groups⟩ = .some r) :
    (Pattern.some q).exec ⟨offset, run ++ rest, groups⟩ next = .some r := by
  cases run with
  | nil => exact absurd rfl nonempty
  | cons c run =>
    rw [List.forall_mem_cons] at all
    simp only [Pattern.some, exec, List.cons_append, if_pos all.1]
    apply takeMany_run all.2 stops
    rw [List.length_cons, Nat.add_comm run.length, ← Nat.add_assoc] at h
    exact h

theorem findAllFrom_of_matchAt {taken rest : List Char} (here : p.matchAt offset (taken ++ rest) = .some m)
    (stop : m.stop = offset + taken.length) (nonempty : taken ≠ []) :
    p.findAllFrom offset (taken ++ rest) = m :: p.findAllFrom (offset + taken.length) rest := by
  cases taken with
  | nil => exact absurd rfl nonempty
  | cons c taken =>
    rw [List.cons_append] at here ⊢
    rw [List.length_cons] at stop ⊢
    have length : m.stop - offset - 1 = taken.length := by omega
    rw [findAllFrom, here]
    simp only [length, List.drop_left, Nat.add_assoc, Nat.add_comm 1]

theorem findAllFrom_of_matchAt_eq_none {c : Char} {rest : List Char}
    (here : p.matchAt offset (c :: rest) = none) :
    p.findAllFrom offset (c :: rest) = p.findAllFrom (offset + 1) rest := by
  rw [findAllFrom, here]

/-- One step of a search: a match is found, or one character is passed over. -/
theorem exists_findAllFrom_step {c : Char} {front rest : List Char}
    (within : ∀ m, p.matchAt offset (c :: front ++ rest) = .some m →
      offset < m.stop ∧ m.stop ≤ offset + (c :: front).length) :
    ∃ passed later ms, c :: front = passed ++ later ∧ passed ≠ [] ∧
      p.findAllFrom offset (c :: front ++ rest) =
        ms ++ p.findAllFrom (offset + passed.length) (later ++ rest) ∧
      ∀ m ∈ ms, m.stop ≤ offset + (c :: front).length := by
  cases here : p.matchAt offset (c :: front ++ rest) with
  | none => exact ⟨[c], front, [], rfl, by simp, findAllFrom_of_matchAt_eq_none here, by simp⟩
  | some m =>
    obtain ⟨lt, le⟩ := within m here
    obtain ⟨passed, later, split, length⟩ :
        ∃ passed later, c :: front = passed ++ later ∧ offset + passed.length = m.stop := by
      refine ⟨_, _, (List.take_append_drop (m.stop - offset) _).symm, ?_⟩
      rw [List.length_take]
      omega
    have nonempty : passed ≠ [] := by
      rintro rfl
      simp at length
      omega
    rw [split] at here le ⊢
    rw [List.append_assoc] at here ⊢
    exact ⟨passed, later, [m], rfl, nonempty, findAllFrom_of_matchAt here length.symm nonempty,
      by simpa using le⟩

/-- A search through two texts one behind the other is two searches if no match that starts in the first
goes beyond it. -/
theorem findAllFrom_append {front rest : List Char}
    (apart : ∀ ahead behind m, front = ahead ++ behind → behind ≠ [] →
      p.matchAt (offset + ahead.length) (behind ++ rest) = .some m →
      offset + ahead.length < m.stop ∧ m.stop ≤ offset + front.length) :
    ∃ ms, p.findAllFrom offset (front ++ rest) = ms ++ p.findAllFrom (offset + front.length) rest ∧
      ∀ m ∈ ms, m.stop ≤ offset + front.length := by
  induction size : front.length using Nat.strongRecOn generalizing offset front with
  | ind size ih =>
    cases front with
    | nil => exact ⟨[], by simp [← size], by simp⟩
    | cons c front =>
      have within : ∀ m, p.matchAt offset (c :: front ++ rest) = .some m →
          offset < m.stop ∧ m.stop ≤ offset + (c :: front).length :=
        fun m => apart [] (c :: front) m rfl (List.cons_ne_nil c front)
      rcases exists_findAllFrom_step within with ⟨passed, later, ms, split, nonempty, first, stops⟩
      rw [split] at apart size stops ⊢
      rw [split] at first
      have shorter := List.length_pos_iff.mpr nonempty
      have apart' : ∀ ahead behind m, later = ahead ++ behind → behind ≠ [] →
          p.matchAt (offset + passed.length + ahead.length) (behind ++ rest) = .some m →
          offset + passed.length + ahead.length < m.stop ∧
            m.stop ≤ offset + passed.length + later.length := by
        intro ahead behind m split' behind_ne here
        have bounds := apart (passed ++ ahead) behind m (by rw [split', List.append_assoc]) behind_ne
        rw [List.length_append, List.length_append, ← Nat.add_assoc, ← Nat.add_assoc] at bounds
        exact bounds here
      rw [List.length_append] at size stops
      rcases ih later.length (by omega) apart' rfl with ⟨ms', second, stops'⟩
      refine ⟨ms ++ ms', ?_, ?_⟩
      · rw [first, second, ← size, List.append_assoc, Nat.add_assoc]
      · intro m hm
        rcases List.mem_append.mp hm with hm | hm
        · have := stops m hm
          omega
        · have := stops' m hm
          omega

/-- Each of the matches is one that the pattern can take. -/
theorem exists_occursAt_of_mem_findAllFrom (ahead : List Char) (h : m ∈ p.findAllFrom ahead.length text) :
    ∃ before taken rest, p.OccursAt (ahead ++ text) before taken rest m.groups ∧
      m.start = before.length ∧ m.stop = before.length + taken.length ∧ ahead.length ≤ before.length := by
  induction length : text.length using Nat.strongRecOn generalizing ahead text with
  | ind size ih =>
    cases text with
    | nil => simp [findAllFrom] at h
    | cons c text =>
      rw [findAllFrom] at h
      split at h
      · rename_i found here
        rcases exists_takes_of_matchAt here with ⟨taken, rest, hrest, takes, start, stop⟩
        rcases List.mem_cons.mp h with rfl | h
        · exact ⟨ahead, taken, rest, ⟨by rw [hrest], takes⟩, start, stop, Nat.le_refl _⟩
        · -- the search goes on behind what was taken
          let skipped := c :: text.take (found.stop - ahead.length - 1)
          have fits := congrArg List.length hrest
          rw [List.length_cons, List.length_append] at fits
          have longer : ahead.length + 1 + (found.stop - ahead.length - 1) = (ahead ++ skipped).length := by
            simp only [skipped, List.length_append, List.length_cons, List.length_take]
            omega
          rw [longer] at h
          have shorter : (text.drop (found.stop - ahead.length - 1)).length < size := by
            rw [List.length_cons] at length
            rw [List.length_drop]
            omega
          rcases ih _ shorter (ahead ++ skipped) h rfl with
            ⟨before, taken, rest, occurs, start, stop, le⟩
          rw [List.append_assoc, List.cons_append, List.take_append_drop] at occurs
          rw [List.length_append] at le
          exact ⟨before, taken, rest, occurs, start, stop, by omega⟩
      · have longer : ahead.length + 1 = (ahead ++ [c]).length := by simp
        rw [longer] at h
        rcases ih text.length (by rw [← length, List.length_cons]; omega) (ahead ++ [c]) h rfl with
          ⟨before, taken, rest, occurs, start, stop, le⟩
        rw [List.append_assoc] at occurs
        exact ⟨before, taken, rest, occurs, start, stop, by omega⟩

end Pattern

end ContainerKeys.Text
