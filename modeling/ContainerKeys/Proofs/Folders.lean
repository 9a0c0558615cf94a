import ContainerKeys.Proofs.NormalPaths

/-!
# Directories of a path

For an absolute path in normal form, its directory is the path without its last part, and the directories
above it are its starts, down to the root. What stands in a directory makes the path of the directory lead
to it.

* `Path.Normal.upTo` — the first parts of a path.
* `Path.Normal.parent_path`, `Path.Normal.ancestors_upTo` — the directories above a path.
* `FileTree.isFolder_of_isFile_join` — a path to a file leads through a directory.
-/

namespace ContainerKeys

/-! ## Directories above a path -/

namespace Path

theorem ne_of_mem_reverse {last : List Char} (free : '/' ∉ last) :
    ∀ c ∈ last.reverse, decide (c ≠ '/') = true := by
  intro c member
  exact decide_eq_true fun slash => free (slash ▸ List.mem_reverse.mp member)

/-- What stands behind the last slash is cut off. -/
theorem dropWhile_last {front last : List Char} (free : '/' ∉ last) :
    ((front ++ '/' :: last).reverse.dropWhile (· ≠ '/')).reverse = front ++ ['/'] := by
  rw [List.reverse_append, List.reverse_cons, List.append_assoc,
    List.dropWhile_append_of_pos (ne_of_mem_reverse free)]
  simp

theorem baseChars_of_last {front last : List Char} (free : '/' ∉ last) :
    baseChars (front ++ '/' :: last) = last := by
  rw [baseChars, List.reverse_append, List.reverse_cons, List.append_assoc,
    List.takeWhile_append_of_pos (ne_of_mem_reverse free)]
  simp

/-- The slash between a directory and the last part goes, too. -/
theorem parentChars_of_front {front last : List Char} (some : front ≠ [])
    (ends : front.getLast? ≠ Option.some '/') (free : '/' ∉ last) :
    parentChars (front ++ '/' :: last) = front := by
  rcases List.eq_nil_or_concat front with none | ⟨before, c, rfl⟩
  · exact absurd none some
  · rw [List.concat_eq_append, List.getLast?_concat, ne_eq, Option.some.injEq] at ends
    unfold parentChars
    simp only [dropWhile_last free]
    simp [ends]

/-- Slashes alone stay. -/
theorem parentChars_of_slashes (k : Nat) {last : List Char} (free : '/' ∉ last) :
    parentChars (List.replicate k '/' ++ '/' :: last) = List.replicate k '/' ++ ['/'] := by
  unfold parentChars
  simp only [dropWhile_last free]
  simp

theorem isAbsolute_join {p : Path} (absolute : isAbsolute p = true) (q : Path) :
    isAbsolute (join p q) = true := by
  by_cases own : isAbsolute q = true
  · rw [join, if_pos own]
    exact own
  · have head : p.toList.head? = some '/' := of_decide_eq_true absolute
    obtain ⟨rest, shape⟩ := List.head?_eq_some_iff.mp head
    apply decide_eq_true
    rw [toList_join p own, lead, shape]
    split <;> rfl

namespace Normal

variable (n : Normal)

/-- The directory that the first `k` parts lead to. -/
def upTo (k : Nat) : Normal where
  mark := n.mark
  parts := n.parts.take k
  isMark := n.isMark
  plain part member := n.plain part (List.mem_of_mem_take member)

@[simp] theorem mark_upTo (k : Nat) : (n.upTo k).mark = n.mark := rfl

@[simp] theorem parts_upTo (k : Nat) : (n.upTo k).parts = n.parts.take k := rfl

/-- A path with parts does not end in a slash. -/
theorem getLast?_chars_ne {n : Normal} (more : n.parts ≠ []) : n.chars.getLast? ≠ some '/' := by
  intro slash
  have lead := n.lead_path
  rw [Path.lead, if_pos (Or.inr (n.toList_path ▸ slash)), if_neg more, toList_path] at lead
  simp at lead

theorem parentChars_mark {last : List Char} (free : '/' ∉ last) :
    parentChars (n.mark ++ last) = n.mark := by
  rcases n.isMark with one | two
  · rw [one]
    exact parentChars_of_slashes 0 free
  · rw [two]
    exact parentChars_of_slashes 1 free

/-- A path with parts ends in its last part, with a slash before it. -/
theorem exists_chars_eq {n : Normal} {front : List (List Char)} {last : List Char}
    (split : n.parts = front ++ [last]) : ∃ before, n.chars = before ++ '/' :: last := by
  by_cases only : front = []
  · subst only
    rcases n.isMark with one | two
    · exact ⟨[], by simp [Normal.chars, split, one, Text.joinWith]⟩
    · exact ⟨['/'], by simp [Normal.chars, split, two, Text.joinWith]⟩
  · refine ⟨n.mark ++ Text.joinWith '/' front, ?_⟩
    rw [Normal.chars, split, Text.joinWith_append '/' only (by simp), List.append_assoc]
    rfl

/-- What stands behind the last slash of a path is its last part; the root has none. -/
theorem base_path : Path.base n.path = String.ofList (n.parts.getLast?.getD []) := by
  rw [Path.base, toList_path]
  rcases List.eq_nil_or_concat n.parts with none | ⟨front, last, split⟩
  · rcases n.isMark with one | two
    · simp [Normal.chars, none, one, Text.joinWith, baseChars]
    · simp [Normal.chars, none, two, Text.joinWith, baseChars]
  · rw [List.concat_eq_append] at split
    have free : '/' ∉ last := (n.plain last (split ▸ List.mem_concat_self)).noSlash
    rcases exists_chars_eq split with ⟨before, chars⟩
    rw [chars, baseChars_of_last free, split, List.getLast?_concat, Option.getD_some]

theorem base_path_eq_iff {name : String} (some : name ≠ "") :
    Path.base n.path = name ↔ n.parts.getLast? = Option.some name.toList := by
  rw [base_path, ← String.toList_inj, String.toList_ofList]
  cases n.parts.getLast? with
  | none => simp [some]
  | some last => simp

/-- The directory of a path is the path without its last part; the root is its own directory. -/
theorem parent_path : Path.parent n.path = (n.upTo (n.parts.length - 1)).path := by
  have chars : parentChars n.chars = (n.upTo (n.parts.length - 1)).chars := by
    rcases List.eq_nil_or_concat n.parts with none | ⟨front, last, split⟩
    · have root := n.parentChars_mark List.not_mem_nil
      simpa [Normal.chars, none, Text.joinWith] using root
    · rw [List.concat_eq_append] at split
      have free : '/' ∉ last := (n.plain last (split ▸ List.mem_concat_self)).noSlash
      have up : (n.upTo (n.parts.length - 1)).parts = front := by simp [split]
      by_cases only : front = []
      · subst only
        rw [Normal.chars, Normal.chars, up, split, mark_upTo]
        simpa [Text.joinWith] using n.parentChars_mark free
      · have whole : n.chars = (n.upTo (n.parts.length - 1)).chars ++ '/' :: last := by
          rw [Normal.chars, Normal.chars, up, split, mark_upTo,
            Text.joinWith_append '/' only (by simp), List.append_assoc]
          rfl
        have more : (n.upTo (n.parts.length - 1)).parts ≠ [] := up ▸ only
        have ends := getLast?_chars_ne more
        rw [whole]
        apply parentChars_of_front _ ends free
        intro empty
        rcases n.isMark with one | two
        · simp [Normal.chars, one] at empty
        · simp [Normal.chars, two] at empty
  rw [Path.parent, toList_path, chars, path]

/-- Nothing is above the root. -/
theorem ancestors_upTo_zero : Path.ancestors (n.upTo 0).path = [(n.upTo 0).path] := by
  have root : Path.parent (n.upTo 0).path = (n.upTo 0).path := by
    rw [parent_path, path_inj]
    simp
  have own : parentChars (n.upTo 0).chars = (n.upTo 0).chars := by
    rw [← toList_path, ← String.toList_ofList (l := parentChars _)]
    exact congrArg String.toList root
  rw [Path.ancestors, toList_path, ancestorsChars, if_pos own]
  rfl

/-- Above a directory come the directories above the one that it is in. -/
theorem ancestors_upTo_succ {k : Nat} (h : k < n.parts.length) :
    Path.ancestors (n.upTo (k + 1)).path = (n.upTo (k + 1)).path :: Path.ancestors (n.upTo k).path := by
  have length : (n.upTo (k + 1)).parts.length = k + 1 := by
    rw [parts_upTo, List.length_take]
    omega
  have up : Path.parent (n.upTo (k + 1)).path = (n.upTo k).path := by
    rw [parent_path, path_inj, length]
    simp [List.take_take]
  have chars : parentChars (n.upTo (k + 1)).chars = (n.upTo k).chars := by
    rw [← toList_path (n.upTo k), ← up, Path.parent, String.toList_ofList, toList_path]
  have other : ¬ parentChars (n.upTo (k + 1)).chars = (n.upTo (k + 1)).chars := by
    intro same
    have parts : (n.upTo k).parts = (n.upTo (k + 1)).parts := by
      rw [← filter_parts_chars, ← filter_parts_chars, ← chars, same]
    have shorter := congrArg List.length parts
    rw [length, parts_upTo, List.length_take] at shorter
    omega
  rw [Path.ancestors, toList_path, ancestorsChars, if_neg other, List.map_cons, chars, Path.ancestors,
    toList_path]
  rfl

/-- The directories that fewer than `k` parts lead to, nearest first. -/
def foldersBelow : Nat → List Path
  | 0 => []
  | k + 1 => (n.upTo k).path :: foldersBelow k

/-- The directories above one are those that fewer parts lead to. -/
theorem ancestors_upTo {k : Nat} (h : k ≤ n.parts.length) :
    Path.ancestors (n.upTo k).path = n.foldersBelow (k + 1) := by
  induction k with
  | zero => exact n.ancestors_upTo_zero
  | succ k ih =>
    rw [n.ancestors_upTo_succ (by omega), ih (by omega)]
    rfl

end Normal

end Path

/-! ## Directories on the way to a file -/

namespace FileTree

variable {t : FileTree} {ρ : Route}

/-- What is below an entry makes it a directory. -/
theorem folder_of_entryAt_concat {root e : Entry} {name : String}
    (h : entryAt root (ρ ++ [name]) = some e) :
    ∃ entries listable, entryAt root ρ = some (.folder entries listable) := by
  rw [entryAt_append] at h
  obtain ⟨holder, found, below⟩ := Option.bind_eq_some_iff.mp h
  cases holder with
  | folder entries listable => exact ⟨entries, listable, found⟩
  | file bytes => simp [entryAt, Entry.child?, Entry.entries] at below
  | link target => simp [entryAt, Entry.child?, Entry.entries] at below

/-- A name leads to something only if it stands in the directory. -/
theorem exists_entryAt_of_walkNames {root e : Entry} {onLink : Route → List String → Except FileError Goal}
    {here : Route} {name : String} (dots : ¬ (name = "" ∨ name = ".")) (up : ¬ name = "..")
    (h : walkNames root .target onLink here [name] = .ok (.found ρ e)) :
    ∃ held, entryAt root (here ++ [name]) = some held := by
  rw [walkNames, if_neg dots, if_neg up, if_neg (by simp)] at h
  split at h
  · cases h
  · cases found : entryAt root (here ++ [name]) with
    | none =>
      rw [found] at h
      cases h
    | some held => exact ⟨held, rfl⟩

theorem not_endsInSlash_concat {name : String} (named : name ≠ "") (rest : List String) :
    ¬ (rest ++ [name] = [] ∨ endsInSlash (rest ++ [name]) = true) := by
  simp [endsInSlash, named]

theorem walkNames_front {root e : Entry} {onLink : Route → List String → Except FileError Goal}
    {here : Route} {names : List String} {name : String} (dots : ¬ (name = "" ∨ name = "."))
    (up : ¬ name = "..") (k : Nat)
    (linked : ∀ here names, onLink here (names ++ [name]) = .ok (.found ρ e) →
      ∃ ρ' entries listable, onLink here (names ++ List.replicate k "") =
        .ok (.found ρ' (.folder entries listable)))
    (h : walkNames root .target onLink here (names ++ [name]) = .ok (.found ρ e)) :
    ∃ ρ' entries listable, walkNames root .target onLink here (names ++ List.replicate k "") =
      .ok (.found ρ' (.folder entries listable)) := by
  have goesOn := not_endsInSlash_concat (not_or.mp dots).1
  fun_induction walkNames root .target onLink here names with
  | case1 here holder found =>
    obtain ⟨held, below⟩ := exists_entryAt_of_walkNames dots up h
    obtain ⟨entries, listable, folder⟩ := folder_of_entryAt_concat below
    refine ⟨here, entries, listable, ?_⟩
    rw [List.nil_append, ← List.append_nil (List.replicate k ""), walkNames_replicate, walkNames,
      folder]
  | case2 here none =>
    obtain ⟨held, below⟩ := exists_entryAt_of_walkNames dots up h
    obtain ⟨entries, listable, folder⟩ := folder_of_entryAt_concat below
    rw [none] at folder
    cases folder
  | case3 here first rest skipped ih =>
    rw [List.cons_append, walkNames, if_pos skipped] at h ⊢
    exact ih h
  | case4 here rest skipped ih =>
    rw [List.cons_append, walkNames, if_neg skipped, if_pos rfl] at h ⊢
    exact ih h
  | case5 here first rest skipped notUp writing => exact absurd writing.1 (by decide)
  | case6 here first rest skipped notUp writing long =>
    rw [List.cons_append, walkNames, if_neg skipped, if_neg notUp, if_neg (by simp), if_pos long] at h
    cases h
  | case7 here first rest skipped notUp writing short none last =>
    rw [List.cons_append, walkNames_named skipped notUp (by simp) short, none] at h
    simp only [if_neg (goesOn rest)] at h
    cases h
  | case8 here first rest skipped notUp writing short none more =>
    rw [List.cons_append, walkNames_named skipped notUp (by simp) short, none] at h
    simp only [if_neg (goesOn rest)] at h
    cases h
  | case9 here first rest skipped notUp writing short es listable folder ih =>
    rw [List.cons_append, walkNames_named skipped notUp (by simp) short, folder] at h ⊢
    exact ih h
  | case10 here first skipped notUp short bytes file writing =>
    rw [List.cons_append, walkNames_named skipped notUp (by simp) short, file] at h
    cases h
  | case11 here first rest skipped notUp writing short bytes file more =>
    rw [List.cons_append, walkNames_named skipped notUp (by simp) short, file] at h
    simp only [if_neg (not_or.mp (goesOn rest)).1] at h
    cases h
  | case12 here first rest skipped notUp writing short target link entry =>
    exact absurd entry.2 (by decide)
  | case13 here first rest skipped notUp writing short target link entry =>
    rw [List.cons_append, walkNames_named skipped notUp (by simp) short, link] at h ⊢
    simp only [reduceCtorEq, and_false, if_false, ← List.append_assoc] at h ⊢
    exact linked _ _ h

/-- Names that lead on to something lead to a directory, also with slashes behind them. -/
theorem followNames_front {root e : Entry} {links : Nat} {here : Route} {names : List String}
    {name : String} (dots : ¬ (name = "" ∨ name = ".")) (up : ¬ name = "..") (k : Nat)
    (h : followNames root .target links here (names ++ [name]) = .ok (.found ρ e)) :
    ∃ ρ' entries listable, followNames root .target links here (names ++ List.replicate k "") =
      .ok (.found ρ' (.folder entries listable)) := by
  induction links generalizing here names with
  | zero =>
    refine walkNames_front dots up k ?_ h
    rintro _ _ ⟨⟩
  | succ links ih => exact walkNames_front dots up k (fun _ _ => ih) h

/-- The names of a path with a name joined to it are those of the path, but for a slash at its end. -/
theorem namesOf_join {p : Path} (some : p ≠ "") {name : String} (plain : Path.Plain name.toList) :
    ∃ front k, namesOf p = front ++ List.replicate k "" ∧
      namesOf (Path.join p name) = front ++ [Text.nameOf name.toList] := by
  have nonempty : p.toList ≠ [] := fun none => some (String.toList_injective none)
  have only : Path.parts name.toList = [name.toList] := Text.splitOn_of_not_mem plain.noSlash
  have joined := Path.toList_join p plain.not_isAbsolute
  by_cases slash : p.toList.getLast? = Option.some '/'
  · obtain ⟨before, split⟩ := List.getLast?_eq_some_iff.mp slash
    refine ⟨(Path.parts before).map Text.nameOf, 1, ?_, ?_⟩
    · rw [namesOf, split, Path.parts, Text.splitOn_append_cons, List.map_append]
      rfl
    · rw [namesOf, joined, Path.lead, if_pos (Or.inr slash), split, List.append_assoc, Path.parts,
        List.singleton_append, Text.splitOn_append_cons, List.map_append]
      exact congrArg _ (congrArg _ only)
  · have ends : ¬ (p.toList.getLast? = none ∨ p.toList.getLast? = Option.some '/') := by
      simp [slash, nonempty]
    refine ⟨namesOf p, 0, by simp, ?_⟩
    rw [namesOf, joined, Path.lead, if_neg ends, List.append_assoc, Path.parts, List.singleton_append,
      Text.splitOn_append_cons, List.map_append]
    exact congrArg _ (congrArg _ only)

/-- An absolute path is followed by its names from the root, unless it is too long. -/
theorem placeOf?_of_isAbsolute {p : Path} (absolute : Path.isAbsolute p = true) :
    t.placeOf? p =
      if p.utf8ByteSize ≤ pathLimit then Goal.place? (followNames t.root .target linkLimit [] (namesOf p))
      else none := by
  have some : p ≠ "" := by
    rintro rfl
    cases absolute
  unfold placeOf? follow namesAlong
  by_cases short : p.utf8ByteSize ≤ pathLimit
  · rw [if_neg some, if_neg (Nat.not_lt.mpr short), if_pos absolute, if_pos short]
    rfl
  · rw [if_neg some, if_pos (Nat.not_le.mp short), if_neg short]
    rfl

theorem exists_of_place?_eq_some {goal : Except FileError Goal} (h : Goal.place? goal = some ρ) :
    ∃ e, goal = .ok (.found ρ e) := by
  cases goal with
  | error fault => cases h
  | ok goal =>
    cases goal with
    | free folder name => cases h
    | found route e =>
      cases h
      exact ⟨e, rfl⟩

/-- A path to a file leads through a directory. -/
theorem isFolder_of_isFile_join {p : Path} (absolute : Path.isAbsolute p = true) {name : String}
    (plain : Path.Plain name.toList) (h : t.isFile (Path.join p name) = true) : t.isFolder p = true := by
  have some : p ≠ "" := by
    rintro rfl
    cases absolute
  rcases namesOf_join some plain with ⟨front, k, own, joined⟩
  rcases plain.nameOf_ne with ⟨empty, dot, up⟩
  rcases isFile_iff.mp h with ⟨ρ, bytes, place, -⟩
  rw [placeOf?_of_isAbsolute (Path.isAbsolute_join absolute name), joined] at place
  split at place
  · rename_i short
    rcases exists_of_place?_eq_some place with ⟨e, led⟩
    rcases followNames_front (not_or.mpr ⟨empty, dot⟩) up k led with
      ⟨ρ', entries, listable, folder⟩
    refine isFolder_iff.mpr ⟨ρ', entries, listable, ?_, entryAt_of_followNames folder⟩
    -- the path of the directory is no longer than that of the file
    rw [placeOf?_of_isAbsolute absolute, if_pos (Nat.le_trans (Path.utf8ByteSize_le_join p plain) short),
      own, folder]
    rfl
  · cases place

end FileTree

end ContainerKeys
