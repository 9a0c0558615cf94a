import ContainerKeys.Text.Split

/-!
# Pieces of a text

A text is cut at each separator, and pieces are joined with separators between them. Cutting and joining
undo each other.

* `Text.splitOn_append_cons` — the pieces on both sides of a separator.
* `Text.splitOn_joinWith`, `Text.joinWith_splitOn` — cutting and joining undo each other.
* `Text.infix_of_mem_splitOn` — a piece stands in the text as it is.
* `Text.length_splitOn` — there is one piece more than there are separators.
-/

namespace ContainerKeys.Text

/-! ## Joining -/

theorem joinWith_cons (sep : α) (piece : List α) {pieces : List (List α)} (more : pieces ≠ []) :
    joinWith sep (piece :: pieces) = piece ++ sep :: joinWith sep pieces := by
  cases pieces with
  | nil => exact absurd rfl more
  | cons next rest => rfl

theorem joinWith_append (sep : α) {front back : List (List α)} (some : front ≠ [])
    (more : back ≠ []) :
    joinWith sep (front ++ back) = joinWith sep front ++ sep :: joinWith sep back := by
  induction front with
  | nil => exact absurd rfl some
  | cons piece rest ih =>
    by_cases last : rest = []
    · subst last
      exact joinWith_cons sep piece more
    · rw [List.cons_append, joinWith_cons sep piece (by simp [last]), ih last,
        joinWith_cons sep piece last, List.append_assoc, List.cons_append]

theorem infix_joinWith (sep : α) {piece : List α} {pieces : List (List α)} (h : piece ∈ pieces) :
    piece <:+: joinWith sep pieces := by
  induction pieces with
  | nil => cases h
  | cons first rest ih =>
    by_cases last : rest = []
    · subst last
      rw [List.mem_singleton.mp h]
      exact List.infix_rfl
    · rw [joinWith_cons sep first last]
      rcases List.mem_cons.mp h with rfl | later
      · exact (List.prefix_append _ _).isInfix
      · exact (ih later).trans ((List.suffix_cons _ _).trans (List.suffix_append _ _)).isInfix

/-- Only the separator is added. -/
theorem not_mem_joinWith {sep a : α} (other : a ≠ sep) {pieces : List (List α)}
    (free : ∀ piece ∈ pieces, a ∉ piece) : a ∉ joinWith sep pieces := by
  induction pieces with
  | nil => exact List.not_mem_nil
  | cons first rest ih =>
    have here : a ∉ first := free first List.mem_cons_self
    have later : a ∉ joinWith sep rest := ih fun piece member => free piece (List.mem_cons_of_mem first member)
    by_cases last : rest = []
    · subst last
      exact here
    · rw [joinWith_cons sep first last]
      simp [here, other, later]

/-! ## Cutting -/

section

variable [DecidableEq α] (sep : α)

theorem splitOn_ne_nil (cs : List α) : splitOn sep cs ≠ [] := by
  cases cs with
  | nil => simp [splitOn]
  | cons c rest =>
    rw [splitOn]
    split
    · simp
    · split <;> simp

/-- A separator divides the pieces before it from those after it. -/
theorem splitOn_append_cons (cs ds : List α) :
    splitOn sep (cs ++ sep :: ds) = splitOn sep cs ++ splitOn sep ds := by
  induction cs with
  | nil => simp [splitOn]
  | cons c rest ih =>
    rw [List.cons_append, splitOn, splitOn]
    split
    · rw [ih, List.cons_append]
    · rw [ih]
      obtain ⟨piece, pieces, split⟩ := List.exists_cons_of_ne_nil (splitOn_ne_nil sep rest)
      rw [split]
      rfl

/-- There is one piece more than there are separators. -/
theorem length_splitOn (cs : List α) : (splitOn sep cs).length = cs.count sep + 1 := by
  induction cs with
  | nil => rfl
  | cons c rest ih =>
    obtain ⟨piece, pieces, split⟩ := List.exists_cons_of_ne_nil (splitOn_ne_nil sep rest)
    rw [split] at ih
    by_cases cut : c = sep
    · simp [splitOn, cut, split, ← ih]
    · simp [splitOn, cut, split, ← ih]

end

section

variable [DecidableEq α] {sep : α}

theorem splitOn_of_not_mem {cs : List α} (free : sep ∉ cs) : splitOn sep cs = [cs] := by
  induction cs with
  | nil => rfl
  | cons c rest ih =>
    rw [List.mem_cons, not_or] at free
    rw [splitOn, if_neg (Ne.symm free.1), ih free.2]

theorem not_mem_of_mem_splitOn {cs piece : List α} (h : piece ∈ splitOn sep cs) : sep ∉ piece := by
  induction cs generalizing piece with
  | nil =>
    cases List.mem_singleton.mp h
    exact List.not_mem_nil
  | cons c rest ih =>
    rcases List.exists_cons_of_ne_nil (splitOn_ne_nil sep rest) with ⟨first, more, split⟩
    rw [splitOn] at h
    by_cases here : c = sep
    · rw [if_pos here] at h
      rcases List.mem_cons.mp h with rfl | later
      · exact List.not_mem_nil
      · exact ih later
    · rw [if_neg here, split] at h
      rcases List.mem_cons.mp h with rfl | later
      · have old : sep ∉ first := ih (split ▸ List.mem_cons_self)
        simp [old, Ne.symm here]
      · exact ih (split ▸ List.mem_cons_of_mem first later)

/-- Pieces without a separator in them are read back from the joined text. -/
theorem splitOn_joinWith {pieces : List (List α)} (some : pieces ≠ [])
    (free : ∀ piece ∈ pieces, sep ∉ piece) : splitOn sep (joinWith sep pieces) = pieces := by
  induction pieces with
  | nil => exact absurd rfl some
  | cons piece rest ih =>
    have here : splitOn sep piece = [piece] := splitOn_of_not_mem (free piece List.mem_cons_self)
    cases rest with
    | nil => exact here
    | cons next more =>
      have later := ih (by simp) fun p hp => free p (List.mem_cons_of_mem piece hp)
      rw [joinWith_cons sep piece (by simp), splitOn_append_cons, here, later, List.singleton_append]

/-- What is written on belongs to the last piece. -/
theorem splitOn_append {ending : List α} (free : sep ∉ ending) (cs : List α) :
    ∃ front last, splitOn sep cs = front ++ [last] ∧
      splitOn sep (cs ++ ending) = front ++ [last ++ ending] := by
  induction cs with
  | nil => exact ⟨[], [], rfl, splitOn_of_not_mem free⟩
  | cons c rest ih =>
    rcases ih with ⟨front, last, split, longer⟩
    by_cases cut : c = sep
    · exact ⟨[] :: front, last, by simp [splitOn, cut, split], by simp [splitOn, cut, longer]⟩
    · cases front with
      | nil => exact ⟨[], c :: last, by simp [splitOn, cut, split], by simp [splitOn, cut, longer]⟩
      | cons first front =>
        exact ⟨(c :: first) :: front, last, by simp [splitOn, cut, split], by simp [splitOn, cut, longer]⟩

/-- Cutting loses nothing. -/
theorem joinWith_splitOn (cs : List α) : joinWith sep (splitOn sep cs) = cs := by
  induction cs with
  | nil => rfl
  | cons c rest ih =>
    rcases List.exists_cons_of_ne_nil (splitOn_ne_nil sep rest) with ⟨piece, pieces, split⟩
    by_cases cut : c = sep
    · rw [splitOn, if_pos cut, joinWith_cons sep [] (splitOn_ne_nil sep rest), ih, cut, List.nil_append]
    · rw [split] at ih
      rw [splitOn, if_neg cut, split]
      cases pieces with
      | nil => exact congrArg (c :: ·) ih
      | cons next more => exact congrArg (c :: ·) ih

/-- A piece stands in the text as it is. -/
theorem infix_of_mem_splitOn {cs piece : List α} (h : piece ∈ splitOn sep cs) : piece <:+: cs := by
  have within := infix_joinWith sep h
  rwa [joinWith_splitOn] at within

end

end ContainerKeys.Text
