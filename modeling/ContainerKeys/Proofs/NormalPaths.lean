import ContainerKeys.Proofs.FileTrees
import ContainerKeys.Proofs.Names

/-!
# Absolute paths in normal form

An absolute path in normal form is one or two slashes, and after them plain parts with slashes between
them. Both are read off the text, and names are joined to the end of it. In a tree without links such a
path leads nowhere but to its own names.

* `Path.Normal.path_inj` — the text determines the slashes and the parts.
* `Path.exists_normal_of_isAbsolute` — every absolute path has a normal form.
* `Path.Normal.foldl_join_path` — joining names to a path.
* `FileTree.absolute_eq_ok`, `FileTree.absolute_path` — what is made absolute is in normal form, and what is
  in normal form stays as it is.
* `FileTree.eq_of_placeOf?_path` — where a path leads in a tree without links.
-/

namespace ContainerKeys

namespace Path

/-! ## Plain parts -/

/-- A part of a path that is the name of something: neither empty nor mere dots, and without slashes. -/
structure Plain (part : List Char) : Prop where
  nonempty : part ≠ []
  notDot : part ≠ ['.']
  notUp : part ≠ ['.', '.']
  noSlash : '/' ∉ part

instance (part : List Char) : Decidable (Plain part) :=
  decidable_of_iff (part ≠ [] ∧ part ≠ ['.'] ∧ part ≠ ['.', '.'] ∧ '/' ∉ part)
    ⟨fun h => ⟨h.1, h.2.1, h.2.2.1, h.2.2.2⟩, fun h => ⟨h.nonempty, h.notDot, h.notUp, h.noSlash⟩⟩

/-- A plain part stands for a name of its own, also if it spells out bytes. -/
theorem Plain.nameOf_ne {part : List Char} (plain : Plain part) :
    Text.nameOf part ≠ "" ∧ Text.nameOf part ≠ "." ∧ Text.nameOf part ≠ ".." := by
  have itself {name : String} (h : Text.nameOf part = name) (ascii : ∀ c ∈ name.toList, c.toNat < 0x80) :
      part = name.toList := by
    rw [← h] at ascii ⊢
    exact (Text.toList_nameOf_of_ascii ascii).symm
  refine ⟨fun h => plain.nonempty ?_, fun h => plain.notDot ?_, fun h => plain.notUp ?_⟩
  · exact itself h (by simp)
  · exact itself h (by simp)
  · exact itself h (by simp)

theorem head?_joinWith_ne {ps : List (List Char)} (plain : ∀ part ∈ ps, Plain part) :
    (Text.joinWith '/' ps).head? ≠ some '/' := by
  cases ps with
  | nil => simp [Text.joinWith]
  | cons part rest =>
    have first := plain part List.mem_cons_self
    rcases List.exists_cons_of_ne_nil first.nonempty with ⟨c, cs, rfl⟩
    have other : c ≠ '/' := fun e => first.noSlash (e ▸ List.mem_cons_self)
    cases rest with
    | nil => simpa [Text.joinWith] using other
    | cons next more => simpa [Text.joinWith] using other

theorem pushPart_plain (rooted : Bool) (done : List (List Char)) {part : List Char}
    (plain : Plain part) : pushPart rooted done part = part :: done := by
  have named : ¬ (part = [] ∨ part = ['.']) := by
    rintro (empty | dot)
    · exact plain.nonempty empty
    · exact plain.notDot dot
  rw [pushPart.eq_def, if_neg named, if_neg plain.notUp]

/-- Plain parts are kept, and empty ones are dropped. -/
theorem collapse_of_plain (rooted : Bool) {ps : List (List Char)}
    (plain : ∀ part ∈ ps, part ≠ [] → Plain part) : collapse rooted ps = ps.filter (· ≠ []) := by
  have step (done : List (List Char)) :
      ps.foldl (pushPart rooted) done = (ps.filter (· ≠ [])).reverse ++ done := by
    induction ps generalizing done with
    | nil => rfl
    | cons part rest ih =>
      have later := ih fun q hq => plain q (List.mem_cons_of_mem part hq)
      rw [List.foldl_cons, later]
      by_cases empty : part = []
      · simp [empty, pushPart]
      · rw [pushPart_plain rooted done (plain part List.mem_cons_self empty)]
        simp [empty]
  rw [collapse, step, List.append_nil, List.reverse_reverse]

/-- From the root on, only plain parts are left. -/
theorem plain_of_mem_collapse {ps : List (List Char)} (free : ∀ part ∈ ps, '/' ∉ part)
    {part : List Char} (h : part ∈ collapse true ps) : Plain part := by
  have step : ∀ done : List (List Char), (∀ q ∈ done, Plain q) →
      ∀ q ∈ ps.foldl (pushPart true) done, Plain q := by
    clear h
    induction ps with
    | nil => exact fun done plain => plain
    | cons part rest ih =>
      intro done plain
      apply ih fun q hq => free q (List.mem_cons_of_mem part hq)
      intro q hq
      by_cases dropped : part = [] ∨ part = ['.']
      · rw [pushPart.eq_def, if_pos dropped] at hq
        exact plain q hq
      · by_cases up : part = ['.', '.']
        · rw [pushPart.eq_def, if_neg dropped, if_pos up] at hq
          cases done with
          | nil => cases hq
          | cons last before =>
            -- what `..` takes back is plain, so it is no `..` itself
            have other : last ≠ ['.', '.'] := (plain last List.mem_cons_self).notUp
            simp only [if_neg other] at hq
            exact plain q (List.mem_cons_of_mem last hq)
        · rw [pushPart.eq_def, if_neg dropped, if_neg up] at hq
          rcases List.mem_cons.mp hq with rfl | old
          · rw [not_or] at dropped
            exact ⟨dropped.1, dropped.2, up, free q List.mem_cons_self⟩
          · exact plain q old
  exact step [] (fun q hq => by cases hq) part (List.mem_reverse.mp h)

/-! ## Names joined to a path -/

/-- What stands in front of a name that is joined to a path. -/
def lead (p : Path) : List Char :=
  if p.toList.getLast? = none ∨ p.toList.getLast? = some '/' then p.toList else p.toList ++ ['/']

theorem Plain.not_isAbsolute {name : String} (plain : Plain name.toList) :
    ¬ isAbsolute name = true := by
  rcases List.exists_cons_of_ne_nil plain.nonempty with ⟨c, cs, shape⟩
  have other : c ≠ '/' := fun e => plain.noSlash (by rw [shape, e]; exact List.mem_cons_self)
  simp [isAbsolute, shape, other]

theorem toList_join (p : Path) {q : Path} (relative : ¬ isAbsolute q = true) :
    (join p q).toList = lead p ++ q.toList := by
  rw [join, if_neg relative, lead]
  split
  · rw [String.toList_append]
  · rw [String.toList_append, String.toList_append]
    rfl

theorem lead_join (p : Path) {name : String} (plain : Plain name.toList) :
    lead (join p name) = lead p ++ name.toList ++ ['/'] := by
  rcases List.eq_nil_or_concat name.toList with none | ⟨cs, c, shape⟩
  · exact absurd none plain.nonempty
  · have other : c ≠ '/' := fun e => plain.noSlash (by simp [shape, e])
    have last : (lead p ++ name.toList).getLast? = some c := by
      rw [shape, List.concat_eq_append, ← List.append_assoc, List.getLast?_concat]
    rw [lead, toList_join p plain.not_isAbsolute, last, if_neg (by simp [other])]

/-- Several names are joined with slashes between them. -/
theorem toList_foldl_join (p : Path) {names : List String} (some : names ≠ [])
    (plain : ∀ name ∈ names, Plain name.toList) :
    (names.foldl join p).toList = lead p ++ Text.joinWith '/' (names.map String.toList) := by
  induction names generalizing p with
  | nil => exact absurd rfl some
  | cons name rest ih =>
    have first := plain name List.mem_cons_self
    by_cases last : rest = []
    · subst last
      exact toList_join p first.not_isAbsolute
    · have later := ih (join p name) last fun q hq => plain q (List.mem_cons_of_mem name hq)
      rw [List.foldl_cons, later, lead_join p first, List.map_cons,
        Text.joinWith_cons '/' _ (by simpa using last)]
      simp

/-- A path does not get shorter when a name is joined to it. -/
theorem utf8ByteSize_le_join (p : Path) {name : String} (plain : Plain name.toList) :
    p.utf8ByteSize ≤ (join p name).utf8ByteSize := by
  rw [join, if_neg plain.not_isAbsolute]
  split
  · rw [String.utf8ByteSize_append]
    omega
  · rw [String.utf8ByteSize_append, String.utf8ByteSize_append]
    omega

theorem utf8ByteSize_le_foldl_join (p : Path) {names : List String}
    (plain : ∀ name ∈ names, Plain name.toList) :
    p.utf8ByteSize ≤ (names.foldl join p).utf8ByteSize := by
  induction names generalizing p with
  | nil => exact Nat.le_refl _
  | cons name rest ih =>
    have first := utf8ByteSize_le_join p (plain name List.mem_cons_self)
    have later := ih (join p name) fun q hq => plain q (List.mem_cons_of_mem name hq)
    rw [List.foldl_cons]
    omega

/-! ## Normal forms -/

/-- An absolute path in normal form, taken apart. -/
structure Normal where
  /-- The leading slashes. -/
  mark : List Char
  parts : List (List Char)
  isMark : mark = ['/'] ∨ mark = ['/', '/']
  plain : ∀ part ∈ parts, Plain part

theorem normalizeChars_of_marked {p : List Char} (marked : rootMark p ≠ []) :
    normalizeChars p = rootMark p ++ Text.joinWith '/' (collapse true (parts p)) := by
  unfold normalizeChars
  dsimp only
  rw [decide_eq_true marked]
  split
  · rename_i none
    exact absurd (List.append_eq_nil_iff.mp none).1 marked
  · rfl

namespace Normal

variable (n : Normal)

/-- The characters of the path. -/
def chars : List Char :=
  n.mark ++ Text.joinWith '/' n.parts

/-- The path itself. -/
def path : Path :=
  String.ofList n.chars

@[simp] theorem toList_path : n.path.toList = n.chars :=
  String.toList_ofList

theorem rootMark_chars : rootMark n.chars = n.mark := by
  have other := head?_joinWith_ne n.plain
  unfold chars
  generalize Text.joinWith '/' n.parts = rest at other
  have tail (c : Char) (cs : List Char) (shape : rest = c :: cs) : c ≠ '/' := by
    rintro rfl
    exact other (by rw [shape]; rfl)
  rcases n.isMark with one | two
  · rw [one]
    cases rest with
    | nil => rfl
    | cons c cs =>
      have ne := tail c cs rfl
      simp [rootMark, ne]
  · rw [two]
    cases rest with
    | nil => rfl
    | cons c cs =>
      have ne := tail c cs rfl
      simp [rootMark, ne]

/-- The leading slashes give empty parts, and so does a path without parts. -/
theorem parts_chars :
    ∃ k, Path.parts n.chars =
      List.replicate (k + 1) [] ++ if n.parts = [] then [[]] else n.parts := by
  have rest : Text.splitOn '/' (Text.joinWith '/' n.parts) =
      if n.parts = [] then [[]] else n.parts := by
    by_cases none : n.parts = []
    · rw [if_pos none, none]
      rfl
    · rw [if_neg none]
      exact Text.splitOn_joinWith none fun part hp => (n.plain part hp).noSlash
  unfold Path.parts chars
  rcases n.isMark with one | two
  · refine ⟨0, ?_⟩
    rw [one, ← rest]
    rfl
  · refine ⟨1, ?_⟩
    rw [two, ← rest]
    rfl

theorem filter_parts_chars : (Path.parts n.chars).filter (· ≠ []) = n.parts := by
  rcases n.parts_chars with ⟨k, split⟩
  have kept : n.parts.filter (· ≠ []) = n.parts := by
    apply List.filter_eq_self.mpr
    intro part hp
    exact decide_eq_true (n.plain part hp).nonempty
  rw [split, List.filter_append]
  by_cases none : n.parts = []
  · simp [none]
  · rw [if_neg none, kept]
    simp

/-- The names that the parts stand for. -/
def names : List String :=
  n.parts.map Text.nameOf

/-- They are the names of the path, apart from empty ones. -/
theorem filter_namesOf_path : (FileTree.namesOf n.path).filter (· ≠ "") = n.names := by
  rcases n.parts_chars with ⟨k, split⟩
  have kept : n.names.filter (· ≠ "") = n.names := by
    apply List.filter_eq_self.mpr
    intro name hname
    rcases List.mem_map.mp hname with ⟨part, hp, rfl⟩
    exact decide_eq_true (n.plain part hp).nameOf_ne.1
  have empty : Text.nameOf [] = "" := rfl
  rw [FileTree.namesOf, n.toList_path, split, List.map_append, List.map_replicate, empty,
    List.filter_append, List.filter_replicate_of_neg (by simp), List.nil_append]
  by_cases none : n.parts = []
  · simp [none, names, empty]
  · rw [if_neg none]
    exact kept

/-- The text determines the leading slashes and the parts. -/
theorem path_inj {n m : Normal} : n.path = m.path ↔ n.mark = m.mark ∧ n.parts = m.parts := by
  constructor
  · intro same
    have chars : n.chars = m.chars := by rw [← n.toList_path, same, m.toList_path]
    constructor
    · rw [← n.rootMark_chars, chars, m.rootMark_chars]
    · rw [← n.filter_parts_chars, chars, m.filter_parts_chars]
  · rintro ⟨mark, parts⟩
    unfold path chars
    rw [mark, parts]

theorem isAbsolute_path : isAbsolute n.path = true := by
  unfold isAbsolute
  rw [toList_path, chars]
  rcases n.isMark with one | two
  · simp [one]
  · simp [two]

/-- What is in normal form is its own normal form. -/
theorem normalize_path : normalize n.path = n.path := by
  have plain : ∀ part ∈ Path.parts n.chars, part ≠ [] → Plain part := by
    intro part hp some
    apply n.plain
    rw [← n.filter_parts_chars]
    exact List.mem_filter.mpr ⟨hp, decide_eq_true some⟩
  have marked : n.mark ≠ [] := by
    rcases n.isMark with one | two
    · simp [one]
    · simp [two]
  have chars : normalizeChars n.chars = n.chars := by
    rw [normalizeChars_of_marked (by rw [n.rootMark_chars]; exact marked), n.rootMark_chars,
      collapse_of_plain _ plain, n.filter_parts_chars]
    rfl
  rw [normalize, toList_path, chars]
  rfl

/-- The path with more parts at its end. -/
def descend (more : List (List Char)) (plain : ∀ part ∈ more, Plain part) : Normal where
  mark := n.mark
  parts := n.parts ++ more
  isMark := n.isMark
  plain part hp := by
    rcases List.mem_append.mp hp with old | new
    · exact n.plain part old
    · exact plain part new

theorem lead_path : lead n.path = if n.parts = [] then n.mark else n.chars ++ ['/'] := by
  rcases List.eq_nil_or_concat n.parts with none | ⟨front, last, split⟩
  · have slash : n.path.toList.getLast? = some '/' := by
      rw [toList_path, chars, none]
      rcases n.isMark with one | two
      · simp [one, Text.joinWith]
      · simp [two, Text.joinWith]
    rw [lead, if_pos (Or.inr slash), if_pos none, toList_path, chars, none]
    simp [Text.joinWith]
  · rw [List.concat_eq_append] at split
    have plain := n.plain last (split ▸ List.mem_concat_self)
    rcases List.eq_nil_or_concat last with empty | ⟨cs, c, rfl⟩
    · exact absurd empty plain.nonempty
    · -- the last character is one of the last part, so it is no slash
      have other : c ≠ '/' := fun e => plain.noSlash (by simp [e])
      have ends : ∃ before, n.chars = before ++ [c] := by
        rw [chars, split]
        by_cases none : front = []
        · exact ⟨n.mark ++ cs, by simp [none, Text.joinWith]⟩
        · exact ⟨n.mark ++ (Text.joinWith '/' front ++ '/' :: cs), by
            simp [Text.joinWith_append '/' none, Text.joinWith]⟩
      rcases ends with ⟨before, ends⟩
      have some : n.parts ≠ [] := by simp [split]
      rw [lead, toList_path, ends, List.getLast?_concat, if_neg (by simp [other]), if_neg some]

/-- Plain names are joined to the end of the parts. -/
theorem foldl_join_path {names : List String} (some : names ≠ [])
    (plain : ∀ part ∈ names.map String.toList, Plain part) :
    names.foldl join n.path = (n.descend (names.map String.toList) plain).path := by
  have plain' : ∀ name ∈ names, Plain name.toList := by
    intro name hname
    exact plain _ (List.mem_map_of_mem hname)
  apply String.toList_injective
  rw [toList_foldl_join _ some plain', lead_path, toList_path]
  show _ = n.mark ++ Text.joinWith '/' (n.parts ++ names.map String.toList)
  by_cases none : n.parts = []
  · rw [if_pos none, none, List.nil_append]
  · have more : names.map String.toList ≠ [] := by simpa using some
    rw [if_neg none, Text.joinWith_append '/' none more, chars]
    simp

end Normal

theorem rootMark_of_isAbsolute {cs : List Char} (absolute : cs.head? = some '/') :
    rootMark cs = ['/'] ∨ rootMark cs = ['/', '/'] := by
  unfold rootMark
  split
  · exact Or.inl rfl
  · exact Or.inr rfl
  · exact Or.inl rfl
  · rename_i other
    rcases List.head?_eq_some_iff.mp absolute with ⟨rest, shape⟩
    exact absurd shape (other rest)

/-- Every absolute path has a normal form, with the leading slashes that stay. -/
theorem exists_normal_of_isAbsolute {p : Path} (absolute : isAbsolute p = true) :
    ∃ n : Normal, normalize p = n.path ∧ n.mark = rootMark p.toList := by
  have marked := rootMark_of_isAbsolute (of_decide_eq_true absolute)
  have some : rootMark p.toList ≠ [] := by
    rcases marked with one | two
    · simp [one]
    · simp [two]
  let n : Normal := {
    mark := rootMark p.toList
    parts := collapse true (parts p.toList)
    isMark := marked
    plain := fun part hp =>
      plain_of_mem_collapse (fun q hq => Text.not_mem_of_mem_splitOn hq) hp }
  refine ⟨n, ?_, rfl⟩
  rw [normalize, normalizeChars_of_marked some]
  rfl

end Path

/-! ## Paths in a tree -/

namespace FileTree

variable {t : FileTree} {ρ : Route}

open ContainerKeys.Path (Normal Plain)

/-- The current directory, if it is there, is given by a path in normal form with one leading slash. -/
def Rooted (t : FileTree) : Prop :=
  ∀ cwd, t.cwd = some cwd → ∃ n : Normal, cwd = n.path ∧ n.mark = ['/']

/-- The leading slashes of a path after it is made absolute: its own, or the one of the current directory. -/
def markOf (p : Path) : List Char :=
  if Path.isAbsolute p then Path.rootMark p.toList else ['/']

/-- A path that is read from a directory starts with the one slash of that directory. -/
theorem rootMark_join {n : Normal} (one : n.mark = ['/']) {p : Path}
    (relative : ¬ Path.isAbsolute p = true) :
    Path.rootMark (Path.join n.path p).toList = ['/'] := by
  rw [Path.toList_join n.path relative, n.lead_path]
  by_cases none : n.parts = []
  · have other : p.toList.head? ≠ some '/' := by simpa [Path.isAbsolute] using relative
    rw [if_pos none, one]
    cases shape : p.toList with
    | nil => rfl
    | cons c cs =>
      have ne : c ≠ '/' := by
        rintro rfl
        exact other (by rw [shape]; rfl)
      simp [Path.rootMark, ne]
  · -- the first part follows the slash
    rcases List.exists_cons_of_ne_nil none with ⟨first, rest, split⟩
    have plain := n.plain first (split ▸ List.mem_cons_self)
    rcases List.exists_cons_of_ne_nil plain.nonempty with ⟨c, cs, rfl⟩
    have ne : c ≠ '/' := fun e => plain.noSlash (e ▸ List.mem_cons_self)
    have shape : ∃ more, n.chars = '/' :: c :: more := by
      rw [Normal.chars, one, split]
      by_cases last : rest = []
      · exact ⟨cs, by simp [last, Text.joinWith]⟩
      · exact ⟨cs ++ '/' :: Text.joinWith '/' rest, by rw [Text.joinWith_cons '/' _ last]; rfl⟩
    rcases shape with ⟨more, shape⟩
    rw [if_neg none, shape]
    simp [Path.rootMark, ne]

/-- What is made absolute is in normal form. -/
theorem absolute_eq_ok (rooted : t.Rooted) {p q : Path} (h : t.absolute p = .ok q) :
    ∃ n : Normal, q = n.path ∧ n.mark = markOf p := by
  unfold absolute at h
  cases cwd : t.cwd with
  | none =>
    rw [cwd] at h
    by_cases absolute : Path.isAbsolute p = true
    · rcases Path.exists_normal_of_isAbsolute absolute with ⟨n, normal, mark⟩
      simp only [if_pos absolute, Except.ok.injEq] at h
      exact ⟨n, h ▸ normal, by rw [mark, markOf, if_pos absolute]⟩
    · simp [absolute] at h
  | some dir =>
    rw [cwd] at h
    cases h
    rcases rooted dir cwd with ⟨d, rfl, one⟩
    by_cases absolute : Path.isAbsolute p = true
    · rcases Path.exists_normal_of_isAbsolute absolute with ⟨n, normal, mark⟩
      refine ⟨n, ?_, by rw [mark, markOf, if_pos absolute]⟩
      rw [Path.absolute, Path.join, if_pos absolute, normal]
    · have mark := rootMark_join one absolute
      have joined : Path.isAbsolute (Path.join d.path p) = true := by
        apply decide_eq_true
        by_contra other
        have none : Path.rootMark (Path.join d.path p).toList = [] := by
          unfold Path.rootMark
          split <;> simp_all
        rw [none] at mark
        cases mark
      rcases Path.exists_normal_of_isAbsolute joined with ⟨n, normal, mark'⟩
      exact ⟨n, normal, by rw [mark', mark, markOf, if_neg absolute]⟩

/-- What is in normal form stays as it is. -/
theorem absolute_path (t : FileTree) (n : Normal) : t.absolute n.path = .ok n.path := by
  unfold absolute
  cases t.cwd with
  | none => simp [n.isAbsolute_path, n.normalize_path]
  | some dir => simp [Path.absolute, Path.join, n.isAbsolute_path, n.normalize_path]

/-- Without links, names lead nowhere but to themselves. -/
theorem eq_of_place?_followNames (noLinks : t.NoLinks) {links : Nat} {here : Route}
    {names : List String} (named : ∀ name ∈ names, name ≠ "" ∧ name ≠ "." ∧ name ≠ "..")
    (h : Goal.place? (followNames t.root .target links here names) = some ρ) : ρ = here ++ names := by
  rcases exists_followNames_eq t.root .target links with ⟨onLink, walks⟩
  rw [walks] at h
  induction names generalizing here with
  | nil =>
    rw [walkNames] at h
    cases found : entryAt t.root here with
    | none => simp [found, Goal.place?] at h
    | some e =>
      simp only [found, Goal.place?, Option.some.injEq] at h
      rw [← h, List.append_nil]
  | cons name rest ih =>
    rcases named name List.mem_cons_self with ⟨empty, dot, up⟩
    have named' : ∀ n ∈ rest, n ≠ "" ∧ n ≠ "." ∧ n ≠ ".." :=
      fun n hn => named n (List.mem_cons_of_mem name hn)
    rw [walkNames, if_neg (not_or.mpr ⟨empty, dot⟩), if_neg up, if_neg (by simp)] at h
    split at h
    · cases h
    · cases found : entryAt t.root (here ++ [name]) with
      | none =>
        rw [found] at h
        by_cases free : rest = [] ∨ endsInSlash rest = true
        · simp [free, Goal.place?] at h
        · simp [free, Goal.place?] at h
      | some e =>
        cases e with
        | link target => exact absurd found (noLinks _ target)
        | file bytes =>
          rw [found] at h
          by_cases last : rest = []
          · simp only [last, if_pos, Goal.place?, Option.some.injEq] at h
            rw [← h, last]
          · simp [last, Goal.place?] at h
        | folder es =>
          rw [found] at h
          rw [ih named' h, List.append_assoc, List.singleton_append]

/-- Empty names at the start lead on from the same place. -/
theorem walkNames_replicate (root : Entry) (purpose : Purpose)
    (onLink : Route → List String → Except FileError Goal) (here : Route) (k : Nat) (names : List String) :
    walkNames root purpose onLink here (List.replicate k "" ++ names) =
      walkNames root purpose onLink here names := by
  induction k with
  | zero => rfl
  | succ k ih =>
    rw [List.replicate_succ, List.cons_append, walkNames, if_pos (Or.inl rfl)]
    exact ih

theorem followNames_replicate (root : Entry) (purpose : Purpose) (links : Nat) (here : Route) (k : Nat)
    (names : List String) :
    followNames root purpose links here (List.replicate k "" ++ names) =
      followNames root purpose links here names := by
  rcases exists_followNames_eq root purpose links with ⟨onLink, walks⟩
  rw [walks, walkNames_replicate]

/-- Without links, a path in normal form leads nowhere but to its own names. -/
theorem eq_of_placeOf?_path (noLinks : t.NoLinks) {n : Normal} (h : t.placeOf? n.path = some ρ) :
    ρ = n.names := by
  rcases n.parts_chars with ⟨k, split⟩
  unfold placeOf? follow namesAlong at h
  split at h
  · cases h
  · split at h
    · cases h
    · rw [if_pos n.isAbsolute_path] at h
      change Goal.place? (followNames t.root .target linkLimit [] (namesOf n.path)) = some ρ at h
      rw [namesOf, n.toList_path, split, List.map_append, List.map_replicate] at h
      have empty : Text.nameOf [] = "" := rfl
      rw [empty, followNames_replicate] at h
      by_cases none : n.parts = []
      · rw [if_pos none, List.map_singleton, empty] at h
        change Goal.place? (followNames t.root .target linkLimit [] (List.replicate 1 "" ++ [])) = some ρ at h
        rw [followNames_replicate] at h
        rw [eq_of_place?_followNames noLinks (by simp) h, Normal.names, none]
        rfl
      · rw [if_neg none] at h
        apply eq_of_place?_followNames noLinks ?_ h
        intro name hname
        rcases List.mem_map.mp hname with ⟨part, hp, rfl⟩
        exact (n.plain part hp).nameOf_ne

end FileTree

end ContainerKeys
