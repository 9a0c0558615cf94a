import ContainerKeys.Proofs.Paths
import Mathlib.Data.List.Basic

/-!
# Places in a file tree

A path leads to a place: the names from the root to an entry, with no links left in them. All that the
program asks of a path is where it leads and what stands there.

* `FileTree.placeOf?` — the place that a path leads to.
* `FileTree.isFile_iff`, `FileTree.isFolder_iff`, `FileTree.read_eq_ok_iff`, `FileTree.size_eq_ok_iff` —
  tests and reads, by place.
* `FileTree.DiffersAt` — two trees that differ in at most one regular file.
* `FileTree.DiffersAt.placeOf?_iff` — in both of them every path leads to the same place, unless it leads
  to that file.
* `FileTree.getLast?_placeOf?` — without links, a place has the last name of the path.
-/

namespace ContainerKeys

/-! ## Entries -/

/-- What an entry is by itself, without what is below it. -/
inductive Face where
  | file (bytes : Bytes)
  | link (target : Path)
  | folder (listable : Bool)
deriving DecidableEq

namespace Entry

/-- What an entry is by itself. -/
def face : Entry → Face
  | .file bytes => .file bytes
  | .link target => .link target
  | .folder _ listable => .folder listable

/-- Is the entry a directory? -/
def isFolder : Entry → Bool
  | .folder .. => true
  | _ => false

/-- The size that is told of an entry. -/
def byteCount : Entry → Nat
  | .file bytes => bytes.length
  | _ => 0

/-- Every directory holds each of its names once. -/
inductive Tidy : Entry → Prop
  | file (bytes : Bytes) : Tidy (.file bytes)
  | link (target : Path) : Tidy (.link target)
  | folder {entries : List (String × Entry)} {listable : Bool} (nodup : (entries.map Prod.fst).Nodup)
      (below : ∀ c ∈ entries, Tidy c.2) : Tidy (.folder entries listable)

/-- Induction over entries: what holds of a directory whenever it holds of its entries. -/
theorem induction_on {motive : Entry → Prop} (e : Entry) (file : ∀ bytes, motive (.file bytes))
    (link : ∀ target, motive (.link target))
    (folder : ∀ (entries : List (String × Entry)) (listable : Bool), (∀ c ∈ entries, motive c.2) →
      motive (.folder entries listable)) : motive e :=
  match e with
  | .file bytes => file bytes
  | .link target => link target
  | .folder entries listable =>
    folder entries listable fun c _ => induction_on c.2 file link folder
termination_by sizeOf e
decreasing_by
  have := List.sizeOf_lt_of_mem ‹c ∈ entries›
  cases c
  simp_all
  omega

/-- In a tidy directory the entry under a name is the one that is listed. -/
theorem child?_eq_some_iff {entries : List (String × Entry)} {listable : Bool}
    (nodup : (entries.map Prod.fst).Nodup) {name : String} {e : Entry} :
    (Entry.folder entries listable).child? name = some e ↔ (name, e) ∈ entries := by
  show (entries.find? fun c => c.1 = name).map Prod.snd = some e ↔ _
  induction entries with
  | nil => simp
  | cons c rest ih =>
    rw [List.map_cons, List.nodup_cons] at nodup
    have later := ih nodup.2
    by_cases here : c.1 = name
    -- no later entry has the name
    · have absent : (name, e) ∉ rest := fun h =>
        nodup.1 (here ▸ List.mem_map.mpr ⟨(name, e), h, rfl⟩)
      rw [List.find?_cons_of_pos (by simpa using here), List.mem_cons]
      obtain ⟨n, f⟩ := c
      cases here
      simp [absent, eq_comm]
    · have other : (name, e) ≠ c := fun h => here (h ▸ rfl)
      rw [List.find?_cons_of_neg (by simpa using here), later, List.mem_cons]
      simp [other]

end Entry

namespace FileTree

variable {t t' : FileTree} {r ρ : Route}

theorem entryAt_append (root : Entry) (front back : Route) :
    entryAt root (front ++ back) = (entryAt root front).bind (entryAt · back) := by
  induction front generalizing root with
  | nil => rfl
  | cons name rest ih =>
    rw [List.cons_append, entryAt, entryAt]
    cases root.child? name with
    | none => rfl
    | some e => exact ih e

/-- In a tidy directory the entry below is the one that is listed. -/
theorem entryAt_concat_iff {root e : Entry} {entries : List (String × Entry)} {listable : Bool}
    (h : entryAt root ρ = some (.folder entries listable)) (nodup : (entries.map Prod.fst).Nodup)
    {name : String} : entryAt root (ρ ++ [name]) = some e ↔ (name, e) ∈ entries := by
  rw [entryAt_append, h, Option.bind_some, entryAt, ← @Entry.child?_eq_some_iff _ listable nodup]
  cases (Entry.folder entries listable).child? name <;> rfl

/-- What is below a tidy entry is tidy. -/
theorem tidy_of_entryAt {root e : Entry} (tidy : root.Tidy) (h : entryAt root ρ = some e) :
    e.Tidy := by
  induction ρ generalizing root with
  | nil => cases h; exact tidy
  | cons name rest ih =>
    rw [entryAt] at h
    cases found : root.child? name with
    | none => rw [found] at h; cases h
    | some c =>
      rw [found] at h
      cases tidy with
      | file => cases found
      | link => cases found
      | folder nodup below =>
        exact ih (below _ ((Entry.child?_eq_some_iff nodup).mp found)) h

/-! ## Where a path leads -/

/-- The place of a goal that is there. -/
def Goal.place? : Except FileError Goal → Option Route
  | .ok (.found route _) => some route
  | _ => none

/-- The place that a path leads to, links followed. -/
def placeOf? (t : FileTree) (p : Path) : Option Route :=
  Goal.place? (t.follow .target p)

/-- Names are followed by a walk that may meet links. -/
theorem exists_followNames_eq (root : Entry) (purpose : Purpose) (links : Nat) :
    ∃ onLink, followNames root purpose links = walkNames root purpose onLink := by
  cases links with
  | zero => exact ⟨_, rfl⟩
  | succ links => exact ⟨_, rfl⟩

/-- Where a walk goes on from a name that is not too long, by the entry that stands there. -/
theorem walkNames_named {root : Entry} {purpose : Purpose}
    {onLink : Route → List String → Except FileError Goal} {here : Route} {name : String}
    {rest : List String} (dots : ¬ (name = "" ∨ name = ".")) (up : ¬ name = "..")
    (writing : ¬ (purpose = .writing ∧ endsInSlash rest = true))
    (short : ¬ nameLimit < name.utf8ByteSize) :
    walkNames root purpose onLink here (name :: rest) =
      match entryAt root (here ++ [name]) with
      | none => if rest = [] ∨ endsInSlash rest then .ok (.free here name) else .error .notFound
      | some (.folder ..) => walkNames root purpose onLink (here ++ [name]) rest
      | some (.file bytes) =>
        if rest = [] then .ok (.found (here ++ [name]) (.file bytes)) else .error .notFolder
      | some (.link target) =>
        if rest = [] ∧ purpose = .entry then .ok (.found (here ++ [name]) (.link target))
        else onLink (if Path.isAbsolute target then [] else here) (namesOf target ++ rest) := by
  refine (if_neg dots).trans ((if_neg up).trans ((if_neg writing).trans ((if_neg short).trans ?_)))
  cases entryAt root (here ++ [name]) with
  | none => rfl
  | some held => cases held <;> rfl

theorem entryAt_of_walkNames {root e : Entry} {purpose : Purpose}
    {onLink : Route → List String → Except FileError Goal} {here : Route} {names : List String}
    (linked : ∀ here names, onLink here names = .ok (.found ρ e) → entryAt root ρ = some e)
    (h : walkNames root purpose onLink here names = .ok (.found ρ e)) : entryAt root ρ = some e := by
  fun_induction walkNames root purpose onLink here names <;> grind

/-- What is found stands at its place. -/
theorem entryAt_of_followNames {root e : Entry} {purpose : Purpose} {links : Nat} {here : Route}
    {names : List String} (h : followNames root purpose links here names = .ok (.found ρ e)) :
    entryAt root ρ = some e := by
  induction links generalizing here names with
  | zero =>
    refine entryAt_of_walkNames ?_ h
    rintro _ _ ⟨⟩
  | succ links ih => exact entryAt_of_walkNames (fun _ _ => ih) h

/-- A path leads to an entry if it leads to the place of the entry. -/
theorem entry_eq_ok_iff {p : Path} {e : Entry} :
    t.entry p = .ok e ↔ ∃ ρ, t.placeOf? p = some ρ ∧ entryAt t.root ρ = some e := by
  unfold entry placeOf?
  cases h : t.follow .target p with
  | error e => simp [Goal.place?]
  | ok goal =>
    cases goal with
    | free => simp [Goal.place?]
    | found ρ found =>
      have there : entryAt t.root ρ = some found := by
        unfold follow at h
        cases names : t.namesAlong p with
        | error e => rw [names] at h; cases h
        | ok names => rw [‹t.namesAlong p = _›] at h; exact entryAt_of_followNames h
      simp [Goal.place?, there]

theorem isFile_iff {p : Path} :
    t.isFile p = true ↔
      ∃ ρ bytes, t.placeOf? p = some ρ ∧ entryAt t.root ρ = some (.file bytes) := by
  unfold isFile
  constructor
  · intro h
    split at h
    · rename_i bytes found
      obtain ⟨ρ, place, there⟩ := entry_eq_ok_iff.mp found
      exact ⟨ρ, bytes, place, there⟩
    · cases h
  · rintro ⟨ρ, bytes, place, there⟩
    rw [entry_eq_ok_iff.mpr ⟨ρ, place, there⟩]

theorem isFolder_iff {p : Path} :
    t.isFolder p = true ↔
      ∃ ρ entries listable,
        t.placeOf? p = some ρ ∧ entryAt t.root ρ = some (.folder entries listable) := by
  unfold isFolder
  constructor
  · intro h
    split at h
    · rename_i entries listable found
      obtain ⟨ρ, place, there⟩ := entry_eq_ok_iff.mp found
      exact ⟨ρ, entries, listable, place, there⟩
    · cases h
  · rintro ⟨ρ, entries, listable, place, there⟩
    rw [entry_eq_ok_iff.mpr ⟨ρ, place, there⟩]

theorem read_eq_ok_iff {p : Path} {bytes : Bytes} :
    t.read p = .ok bytes ↔
      ∃ ρ, t.placeOf? p = some ρ ∧ entryAt t.root ρ = some (.file bytes) := by
  rw [← entry_eq_ok_iff]
  unfold read
  split <;> simp_all

theorem size_eq_ok_iff {p : Path} {n : Nat} :
    t.size p = .ok n ↔
      ∃ ρ e, t.placeOf? p = some ρ ∧ entryAt t.root ρ = some e ∧ e.byteCount = n := by
  constructor
  · intro h
    unfold size at h
    split at h
    · rename_i bytes found
      obtain ⟨ρ, place, there⟩ := entry_eq_ok_iff.mp found
      cases h
      exact ⟨ρ, _, place, there, rfl⟩
    · rename_i e other found
      obtain ⟨ρ, place, there⟩ := entry_eq_ok_iff.mp found
      cases h
      refine ⟨ρ, e, place, there, ?_⟩
      cases e with
      | file bytes => exact absurd rfl (other bytes)
      | link => rfl
      | folder => rfl
    · cases h
  · rintro ⟨ρ, e, place, there, rfl⟩
    unfold size
    rw [entry_eq_ok_iff.mpr ⟨ρ, place, there⟩]
    cases e <;> rfl

/-! ## Trees that differ in one file -/

/-- The trees are the same but for a regular file at the place `r`, which one of them may lack. The order
in which directories are listed plays no part. -/
structure DiffersAt (r : Route) (t t' : FileTree) : Prop where
  cwd : t.cwd = t'.cwd
  limit : t.nestingLimit = t'.nestingLimit
  elsewhere : ∀ ρ, ρ ≠ r →
    (entryAt t.root ρ).map Entry.face = (entryAt t'.root ρ).map Entry.face
  before : ∀ e, entryAt t.root r = some e → ∃ bytes, e = .file bytes
  after : ∀ e, entryAt t'.root r = some e → ∃ bytes, e = .file bytes

namespace DiffersAt

theorem symm (d : DiffersAt r t t') : DiffersAt r t' t where
  cwd := d.cwd.symm
  limit := d.limit.symm
  elsewhere ρ h := (d.elsewhere ρ h).symm
  before := d.after
  after := d.before

/-- Both trees have the same directories. -/
theorem folder (d : DiffersAt r t t') {es : List (String × Entry)} {listable : Bool}
    (h : entryAt t.root ρ = some (.folder es listable)) :
    ∃ es', entryAt t'.root ρ = some (.folder es' listable) := by
  have elsewhere : ρ ≠ r := by
    rintro rfl
    obtain ⟨bytes, file⟩ := d.before _ h
    cases file
  have same := d.elsewhere ρ elsewhere
  rw [h] at same
  cases h' : entryAt t'.root ρ with
  | none => rw [h'] at same; cases same
  | some e =>
    rw [h'] at same
    cases e with
    | file => cases same
    | link => cases same
    | folder es' => cases same; exact ⟨es', rfl⟩

/-- Both trees have the same links. -/
theorem link (d : DiffersAt r t t') {target : Path}
    (h : entryAt t.root ρ = some (.link target)) : entryAt t'.root ρ = some (.link target) := by
  have elsewhere : ρ ≠ r := by
    rintro rfl
    obtain ⟨bytes, file⟩ := d.before _ h
    cases file
  have same := d.elsewhere ρ elsewhere
  rw [h] at same
  cases h' : entryAt t'.root ρ with
  | none => rw [h'] at same; cases same
  | some e =>
    rw [h'] at same
    cases e with
    | file => cases same
    | link => cases same; rfl
    | folder => cases same

/-- Away from `r` both trees have the same files. -/
theorem file (d : DiffersAt r t t') (elsewhere : ρ ≠ r) {bytes : Bytes}
    (h : entryAt t.root ρ = some (.file bytes)) : entryAt t'.root ρ = some (.file bytes) := by
  have same := d.elsewhere ρ elsewhere
  rw [h] at same
  cases h' : entryAt t'.root ρ with
  | none => rw [h'] at same; cases same
  | some e =>
    rw [h'] at same
    cases e with
    | file => cases same; rfl
    | link => cases same
    | folder => cases same

/-- Where one tree has a file, the other has one too, unless it is the place `r` and there is nothing. -/
theorem file_or_none (d : DiffersAt r t t') {bytes : Bytes}
    (h : entryAt t.root ρ = some (.file bytes)) :
    (∃ bytes', entryAt t'.root ρ = some (.file bytes')) ∨ ρ = r ∧ entryAt t'.root ρ = none := by
  by_cases here : ρ = r
  · subst here
    cases h' : entryAt t'.root ρ with
    | none => exact Or.inr ⟨rfl, rfl⟩
    | some e =>
      obtain ⟨bytes', rfl⟩ := d.after e h'
      exact Or.inl ⟨bytes', rfl⟩
  · exact Or.inl ⟨bytes, d.file here h⟩

/-- Where one tree has nothing, the other has nothing either, unless it is the place `r` and there is a
file. -/
theorem none_or_file (d : DiffersAt r t t') (h : entryAt t.root ρ = none) :
    entryAt t'.root ρ = none ∨ ρ = r ∧ ∃ bytes, entryAt t'.root ρ = some (.file bytes) := by
  by_cases here : ρ = r
  · subst here
    cases h' : entryAt t'.root ρ with
    | none => exact Or.inl rfl
    | some e =>
      obtain ⟨bytes, rfl⟩ := d.after e h'
      exact Or.inr ⟨rfl, bytes, rfl⟩
  · have same := d.elsewhere ρ here
    rw [h] at same
    exact Or.inl (Option.map_eq_none_iff.mp same.symm)

/-- A walk leads to the same place in both trees if it does so from links on, unless only one of them has
something there. -/
theorem place?_walkNames_iff (d : DiffersAt r t t')
    (present : (entryAt t.root ρ).isSome = (entryAt t'.root ρ).isSome) (purpose : Purpose)
    {onLink onLink' : Route → List String → Except FileError Goal}
    (linked : ∀ here names, Goal.place? (onLink here names) = some ρ ↔
      Goal.place? (onLink' here names) = some ρ) (here : Route) (names : List String) :
    Goal.place? (walkNames t.root purpose onLink here names) = some ρ ↔
      Goal.place? (walkNames t'.root purpose onLink' here names) = some ρ := by
  fun_induction walkNames t.root purpose onLink here names with
  | case1 here e found =>
    rw [walkNames]
    cases found' : entryAt t'.root here with
    | some e' => rfl
    | none =>
      -- the place is `r`, and it is not `ρ`
      have other : here ≠ ρ := by
        rintro rfl
        simp [found, found'] at present
      simp [Goal.place?, other]
  | case2 here none =>
    rw [walkNames]
    cases found' : entryAt t'.root here with
    | none => rfl
    | some e' =>
      have other : here ≠ ρ := by
        rintro rfl
        simp [none, found'] at present
      simp [Goal.place?, other]
  | case3 here name rest dots ih =>
    conv_rhs => rw [walkNames, if_pos dots]
    exact ih
  | case4 here rest dots ih =>
    conv_rhs => rw [walkNames, if_neg dots, if_pos rfl]
    exact ih
  | case5 here name rest dots up writing =>
    conv_rhs => rw [walkNames, if_neg dots, if_neg up, if_pos writing]
  | case6 here name rest dots up writing long =>
    conv_rhs => rw [walkNames, if_neg dots, if_neg up, if_neg writing, if_pos long]
  | case7 here name rest dots up writing short none last =>
    rw [walkNames_named dots up writing short]
    rcases d.none_or_file none with none' | ⟨rfl, bytes, file'⟩
    · simp [none', last]
    · have other : here ++ [name] ≠ ρ := by
        rintro rfl
        simp [none, file'] at present
      rw [file']
      by_cases ends : rest = [] <;> simp [ends, Goal.place?, other]
  | case8 here name rest dots up writing short none more =>
    rw [walkNames_named dots up writing short]
    rcases d.none_or_file none with none' | ⟨rfl, bytes, file'⟩
    · simp [none', more]
    · have ends : rest ≠ [] := fun h => more (Or.inl h)
      simp [file', ends, Goal.place?]
  | case9 here name rest dots up writing short es listable folder ih =>
    rw [walkNames_named dots up writing short]
    obtain ⟨es', folder'⟩ := d.folder folder
    rw [folder']
    exact ih
  | case10 here name dots up short bytes file writing =>
    rw [walkNames_named dots up writing short]
    rcases d.file_or_none file with ⟨bytes', file'⟩ | ⟨rfl, none'⟩
    · simp [file', Goal.place?]
    · have other : here ++ [name] ≠ ρ := by
        rintro rfl
        simp [file, none'] at present
      simp [none', Goal.place?, other]
  | case11 here name rest dots up writing short bytes file more =>
    rw [walkNames_named dots up writing short]
    rcases d.file_or_none file with ⟨bytes', file'⟩ | ⟨rfl, none'⟩
    · simp [file', more]
    · rw [none']
      by_cases ends : endsInSlash rest = true <;> simp [more, ends, Goal.place?]
  | case12 here name rest dots up writing short target link entry =>
    rw [walkNames_named dots up writing short]
    simp [d.link link, entry]
  | case13 here name rest dots up writing short target link entry =>
    rw [walkNames_named dots up writing short]
    simp only [d.link link, if_neg entry]
    exact linked _ _

/-- Following names leads to the same place in both trees, unless only one of them has something there. -/
theorem place?_followNames_iff (d : DiffersAt r t t')
    (present : (entryAt t.root ρ).isSome = (entryAt t'.root ρ).isSome)
    (purpose : Purpose) (links : Nat) (here : Route) (names : List String) :
    Goal.place? (followNames t.root purpose links here names) = some ρ ↔
      Goal.place? (followNames t'.root purpose links here names) = some ρ := by
  induction links generalizing here names with
  | zero => exact d.place?_walkNames_iff present purpose (fun _ _ => Iff.rfl) here names
  | succ links ih => exact d.place?_walkNames_iff present purpose ih here names

/-- A path leads to the same place in both trees, unless only one of them has something there. -/
theorem placeOf?_iff (d : DiffersAt r t t')
    (present : (entryAt t.root ρ).isSome = (entryAt t'.root ρ).isSome) (p : Path) :
    t.placeOf? p = some ρ ↔ t'.placeOf? p = some ρ := by
  have along : t.namesAlong p = t'.namesAlong p := by
    unfold namesAlong
    rw [d.cwd]
  unfold placeOf? follow
  rw [along]
  cases t'.namesAlong p with
  | error e => rfl
  | ok names => exact d.place?_followNames_iff present .target linkLimit [] names

/-- Away from `r` every path leads to the same place in both trees. -/
theorem placeOf?_iff_of_ne (d : DiffersAt r t t') (elsewhere : ρ ≠ r) (p : Path) :
    t.placeOf? p = some ρ ↔ t'.placeOf? p = some ρ := by
  apply d.placeOf?_iff
  have same := d.elsewhere ρ elsewhere
  rw [← Option.isSome_map, same, Option.isSome_map]

/-- If both trees have the file, every path leads to the same place in both. -/
theorem placeOf?_eq (d : DiffersAt r t t')
    (present : (entryAt t.root r).isSome = (entryAt t'.root r).isSome) (p : Path) :
    t.placeOf? p = t'.placeOf? p := by
  apply Option.ext
  intro ρ
  by_cases here : ρ = r
  · subst here
    exact d.placeOf?_iff present p
  · exact d.placeOf?_iff_of_ne here p

/-- If both trees have the file, every path is that of a file in both or in none. -/
theorem isFile_eq (d : DiffersAt r t t')
    (present : (entryAt t.root r).isSome = (entryAt t'.root r).isSome) (p : Path) :
    t.isFile p = t'.isFile p := by
  have half {s s' : FileTree} (d : DiffersAt r s s')
      (present : (entryAt s.root r).isSome = (entryAt s'.root r).isSome) :
      s.isFile p = true → s'.isFile p = true := by
    intro h
    obtain ⟨ρ, bytes, place, file⟩ := isFile_iff.mp h
    rw [d.placeOf?_eq present p] at place
    rcases d.file_or_none file with ⟨bytes', file'⟩ | ⟨rfl, none'⟩
    · exact isFile_iff.mpr ⟨ρ, bytes', place, file'⟩
    · rw [file, none'] at present
      cases present
  exact Bool.eq_iff_iff.mpr ⟨half d present, half d.symm present.symm⟩

/-- A path leads to a directory in both trees or in none. -/
theorem isFolder_eq (d : DiffersAt r t t') (p : Path) : t.isFolder p = t'.isFolder p := by
  have half {s s' : FileTree} (d : DiffersAt r s s') : s.isFolder p = true → s'.isFolder p = true := by
    intro h
    obtain ⟨ρ, es, listable, place, folder⟩ := isFolder_iff.mp h
    obtain ⟨es', folder'⟩ := d.folder folder
    have place' := (d.placeOf?_iff (by rw [folder, folder']; rfl) p).mp place
    exact isFolder_iff.mpr ⟨ρ, es', listable, place', folder'⟩
  exact Bool.eq_iff_iff.mpr ⟨half d, half d.symm⟩

/-- A path that does not lead to `r` gives the same bytes in both trees. -/
theorem read_of_ne (d : DiffersAt r t t') {p : Path} (elsewhere : t.placeOf? p ≠ some r)
    {bytes : Bytes} (h : t.read p = .ok bytes) : t'.read p = .ok bytes := by
  obtain ⟨ρ, place, file⟩ := read_eq_ok_iff.mp h
  have other : ρ ≠ r := fun e => elsewhere (e ▸ place)
  exact read_eq_ok_iff.mpr ⟨ρ, (d.placeOf?_iff_of_ne other p).mp place, d.file other file⟩

/-- A path that leads to `r` in neither tree can be read in both or in none, with the same bytes. -/
theorem toOption_read_eq (d : DiffersAt r t t') {p : Path} (elsewhere : t.placeOf? p ≠ some r)
    (elsewhere' : t'.placeOf? p ≠ some r) : (t.read p).toOption = (t'.read p).toOption := by
  cases h : t.read p with
  | ok bytes => rw [d.read_of_ne elsewhere h]
  | error fault =>
    cases h' : t'.read p with
    | error fault' => rfl
    | ok bytes =>
      rw [d.symm.read_of_ne elsewhere' h'] at h
      cases h

/-- A path that does not lead to `r` has the same size in both trees. -/
theorem size_of_ne (d : DiffersAt r t t') {p : Path} (elsewhere : t.placeOf? p ≠ some r)
    {n : Nat} (h : t.size p = .ok n) : t'.size p = .ok n := by
  obtain ⟨ρ, e, place, there, count⟩ := size_eq_ok_iff.mp h
  have other : ρ ≠ r := fun e => elsewhere (e ▸ place)
  have place' := (d.placeOf?_iff_of_ne other p).mp place
  cases e with
  | file bytes => exact size_eq_ok_iff.mpr ⟨ρ, _, place', d.file other there, count⟩
  | link target => exact size_eq_ok_iff.mpr ⟨ρ, _, place', d.link there, count⟩
  | folder es =>
    obtain ⟨es', there'⟩ := d.folder there
    exact size_eq_ok_iff.mpr ⟨ρ, _, place', there', count⟩

end DiffersAt

/-! ## Last names -/

/-- There are no links in the tree. -/
def NoLinks (t : FileTree) : Prop :=
  ∀ ρ target, entryAt t.root ρ ≠ some (.link target)

theorem entryAt_file_ne_link (bytes : Bytes) (ρ : Route) (target : Path) :
    entryAt (.file bytes) ρ ≠ some (.link target) := by
  cases ρ with
  | nil => rintro ⟨⟩
  | cons => rintro ⟨⟩

/-- A directory is free of links if its entries are. -/
theorem entryAt_folder_ne_link {entries : List (String × Entry)} {listable : Bool}
    (below : ∀ c ∈ entries, ∀ ρ target, entryAt c.2 ρ ≠ some (.link target)) (ρ : Route)
    (target : Path) : entryAt (.folder entries listable) ρ ≠ some (.link target) := by
  cases ρ with
  | nil => rintro ⟨⟩
  | cons name rest =>
    intro link
    rw [entryAt, Entry.child?, Entry.entries] at link
    cases found : entries.find? (fun c => c.1 = name) with
    | none => rw [found] at link; cases link
    | some c =>
      rw [found] at link
      exact below c (List.mem_of_find?_eq_some found) rest target link

/-- A name that is no mere dots is the last one of the place that it leads to. -/
theorem getLast?_followNames (noLinks : t.NoLinks) {links : Nat} {here : Route}
    {names : List String} {name : String} (dots : ¬ (name = "" ∨ name = ".")) (up : ¬ name = "..")
    (h : Goal.place? (followNames t.root .target links here (names ++ [name])) = some ρ) :
    ρ.getLast? = some name := by
  obtain ⟨onLink, walks⟩ := exists_followNames_eq t.root .target links
  rw [walks] at h
  induction names generalizing here with
  | nil =>
    rw [List.nil_append, walkNames, if_neg dots, if_neg up, if_neg (by simp)] at h
    split at h
    · cases h
    · cases found : entryAt t.root (here ++ [name]) with
      | none => simp [found, Goal.place?] at h
      | some e =>
        cases e with
        | link target => exact absurd found (noLinks _ target)
        | file bytes =>
          simp only [found, if_pos, Goal.place?, Option.some.injEq] at h
          rw [← h, List.getLast?_concat]
        | folder es =>
          simp only [found, walkNames, Goal.place?, Option.some.injEq] at h
          rw [← h, List.getLast?_concat]
  | cons first rest ih =>
    have more : rest ++ [name] ≠ [] := by simp
    rw [List.cons_append, walkNames] at h
    split at h
    · exact ih h
    · split at h
      · exact ih h
      · rw [if_neg (by simp)] at h
        split at h
        · cases h
        · cases found : entryAt t.root (here ++ [first]) with
          | none =>
            rw [found] at h
            by_cases ends : endsInSlash (rest ++ [name]) = true <;>
              simp [more, ends, Goal.place?] at h
          | some e =>
            cases e with
            | link target => exact absurd found (noLinks _ target)
            | file bytes => simp [found, Goal.place?] at h
            | folder es =>
              rw [found] at h
              exact ih h

/-- The names from the root along a path end in its own. -/
theorem namesAlong_eq_ok {p : Path} {names : List String} (h : t.namesAlong p = .ok names) :
    ∃ front, names = front ++ namesOf p := by
  unfold namesAlong at h
  split at h
  · cases h
  · split at h
    · cases h
    · split at h
      · cases h
        exact ⟨[], rfl⟩
      · split at h
        · rename_i cwd _
          cases h
          obtain ⟨front, parts⟩ := Path.parts_join cwd p
          exact ⟨front.map Text.nameOf, by rw [namesOf, parts, List.map_append]; rfl⟩
        · cases h

/-- Without links, a place has the last name of the path that leads to it, unless that is mere dots. -/
theorem getLast?_placeOf? (noLinks : t.NoLinks) {p : Path} {front : List String} {name : String}
    (names : namesOf p = front ++ [name]) (dots : ¬ (name = "" ∨ name = ".")) (up : ¬ name = "..")
    (h : t.placeOf? p = some ρ) : ρ.getLast? = some name := by
  unfold placeOf? follow at h
  cases along : t.namesAlong p with
  | error e => rw [along] at h; cases h
  | ok all =>
    obtain ⟨before, rfl⟩ := namesAlong_eq_ok along
    rw [along, names, ← List.append_assoc] at h
    exact getLast?_followNames noLinks dots up h

end FileTree

end ContainerKeys
