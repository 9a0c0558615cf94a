import ContainerKeys.Proofs.Edits
import ContainerKeys.Proofs.NormalPaths
import ContainerKeys.Proofs.Searches
import Mathlib.Data.List.Induction

/-!
# What a search finds

A search below a root gives the sources that can be reached from it through real directories, each once,
in an order that does not depend on how directories are listed.

* `FileTree.ListedBefore` — the order: the files of a directory, then its sub-directories.
* `FileTree.SourceBelow` — the files that are to be found, by their names from the root on.
* `Survey.exists_lists` — what is found in a directory and below, by induction over the tree.
* `enumerate_lists_sources` — what a search gives.
-/

namespace ContainerKeys

open FileTree (Route entryAt)

namespace FileTree

/-! ## The order of a search -/

/-- The order of a search: the files of a directory by name, then its sub-directories by name, each of
them in the same way. Names are compared character by character, characters by their code points. -/
inductive ListedBefore : Route → Route → Prop
  | file {a b : String} (less : a < b) : ListedBefore [a] [b]
  | fileFirst (a b c : String) (rest : Route) : ListedBefore [a] (b :: c :: rest)
  | folder {a b : String} (less : a < b) (c d : String) (rest rest' : Route) :
      ListedBefore (a :: c :: rest) (b :: d :: rest')
  | inside (a : String) {r r' : Route} (below : ListedBefore r r') : ListedBefore (a :: r) (a :: r')

namespace ListedBefore

variable {a b : String} {r r' : Route}

theorem ne (h : ListedBefore r r') : r ≠ r' := by
  induction h with
  | file less =>
    intro same
    cases same
    exact String.lt_irrefl _ less
  | fileFirst => simp
  | folder less =>
    intro same
    cases same
    exact String.lt_irrefl _ less
  | inside a below ih =>
    intro same
    cases same
    exact ih rfl

theorem of_file (a : String) (some : r ≠ []) : ListedBefore [a] (b :: r) := by
  rcases List.exists_cons_of_ne_nil some with ⟨c, rest, rfl⟩
  exact .fileFirst a b c rest

theorem of_folders (less : a < b) (some : r ≠ []) (some' : r' ≠ []) :
    ListedBefore (a :: r) (b :: r') := by
  rcases List.exists_cons_of_ne_nil some with ⟨c, rest, rfl⟩
  rcases List.exists_cons_of_ne_nil some' with ⟨d, rest', rfl⟩
  exact .folder less c d rest rest'

end ListedBefore

/-! ## Files that are to be found -/

/-- The entry counts as a file under its path: a link to a directory does not. -/
def StandsAsFile (t : FileTree) (path : Path) : Entry → Prop
  | .file _ => True
  | .link _ => t.isFolder path = false
  | .folder .. => False

/-- The names lead, through real directories only, from the directory at `base` with the path `path` to a
source: it counts as a file, no glob leaves it or a directory on the way out, it has a source extension,
and its size is known and within the limit. -/
structure SourceBelow (t : FileTree) (settings : Settings) (path : Path) (base names : Route) :
    Prop where
  entry : ∃ e, entryAt t.root (base ++ names) = some e ∧ t.StandsAsFile (names.foldl Path.join path) e
  kept : ∀ front, front ≠ [] → front <+: names →
    (IgnoreRules.ofPatterns settings.ignorePatterns).ignores (Text.joinStrings "/" front) = false
  source : ∃ name, names.getLast? = some name ∧ Path.extension name ∈ settings.sourceExtensions
  fits : t.Fits settings (names.foldl Path.join path)

/-- Every directory from the one at `base` on that the names lead through may be listed. -/
def ListableAlong (t : FileTree) (base names : Route) : Prop :=
  ∀ front, front <+: names → front ≠ names →
    ∀ e, entryAt t.root (base ++ front) = some e → e.listable = true

/-- Only a path within the limit has a size. -/
theorem Fits.utf8ByteSize_le {t : FileTree} {settings : Settings} {p : Path} (h : t.Fits settings p) :
    p.utf8ByteSize ≤ pathLimit := by
  by_contra long
  rcases h with ⟨size, known, -⟩
  have error : ∃ e, t.entry p = .error e := by
    unfold entry follow namesAlong
    by_cases empty : p = ""
    · exact ⟨.notFound, by rw [if_pos empty]; rfl⟩
    · exact ⟨.nameTooLong, by rw [if_neg empty, if_pos (Nat.lt_of_not_le long)]; rfl⟩
  rcases error with ⟨e, error⟩
  unfold FileTree.size at known
  rw [error] at known
  cases known

end FileTree

/-! ## Names in a tree -/

/-- A name that a file can have: a plain part of a path that stands for itself. -/
structure FileTree.ProperName (name : String) : Prop where
  plain : Path.Plain name.toList
  itself : Text.nameOf name.toList = name

instance (name : String) : Decidable (FileTree.ProperName name) :=
  decidable_of_iff (Path.Plain name.toList ∧ Text.nameOf name.toList = name)
    ⟨fun h => ⟨h.1, h.2⟩, fun h => ⟨h.plain, h.itself⟩⟩

/-- All names below an entry are names that a file can have. -/
def Entry.WellNamed (e : Entry) : Prop :=
  ∀ ρ f, entryAt e ρ = some f → ∀ name ∈ ρ, FileTree.ProperName name

theorem Entry.wellNamed_of_not_isFolder {e : Entry} (plain : e.isFolder = false) : e.WellNamed := by
  intro ρ f found name hname
  rcases List.exists_cons_of_ne_nil (List.ne_nil_of_mem hname) with ⟨first, rest, rfl⟩
  cases e with
  | file => cases found
  | link => cases found
  | folder => cases plain

theorem Entry.wellNamed_folder {entries : List (String × Entry)} {listable : Bool}
    (below : ∀ c ∈ entries, FileTree.ProperName c.1 ∧ c.2.WellNamed) :
    (Entry.folder entries listable).WellNamed := by
  intro ρ f found name hname
  cases ρ with
  | nil => cases hname
  | cons first rest =>
    rw [entryAt, Entry.child?, Entry.entries] at found
    cases child : entries.find? (fun c => c.1 = first) with
    | none => rw [child] at found; cases found
    | some c =>
      rw [child] at found
      have listed := List.mem_of_find?_eq_some child
      have called : c.1 = first := by simpa using List.find?_some child
      rcases List.mem_cons.mp hname with rfl | later
      · exact called ▸ (below c listed).1
      · exact (below c listed).2 rest f found name later

theorem Entry.WellNamed.below {entries : List (String × Entry)} {listable : Bool}
    (named : (Entry.folder entries listable).WellNamed) (nodup : (entries.map Prod.fst).Nodup)
    {c : String × Entry} (listed : c ∈ entries) : c.2.WellNamed := by
  intro ρ f found name hname
  have child : (Entry.folder entries listable).child? c.1 = some c.2 :=
    (Entry.child?_eq_some_iff nodup).mpr listed
  apply named (c.1 :: ρ) f ?_ name (List.mem_cons_of_mem _ hname)
  rw [FileTree.entryAt_cons_folder, child]
  exact found

theorem Entry.WellNamed.at {e f : Entry} (named : e.WellNamed) {ρ : Route} (h : entryAt e ρ = some f) :
    f.WellNamed := by
  intro σ g found name hname
  apply named (ρ ++ σ) g ?_ name (List.mem_append_right ρ hname)
  rw [FileTree.entryAt_append, h]
  exact found

/-! ## From spot to spot -/

namespace Spot

/-- The spot of an entry further down. -/
def descend (s : Spot) (names : Route) : Spot :=
  names.foldl below s

theorem path_descend (s : Spot) (names : Route) :
    (s.descend names).path = names.foldl Path.join s.path := by
  unfold descend
  induction names generalizing s with
  | nil => rfl
  | cons name rest ih => exact ih (s.below name)

theorem barrier?_eq_none_iff {s : Spot} {listable : Bool} :
    s.barrier? listable = none ↔ s.path.utf8ByteSize ≤ FileTree.pathLimit ∧ listable = true := by
  unfold barrier?
  split
  · simp; omega
  · cases listable <;> simp; omega

theorem joinStrings_concat (sep : String) {front : List String} (some : front ≠ []) (last : String) :
    Text.joinStrings sep (front ++ [last]) = Text.joinStrings sep front ++ sep ++ last := by
  induction front with
  | nil => exact absurd rfl some
  | cons s rest ih =>
    cases rest with
    | nil => rfl
    | cons next more =>
      have later := ih (List.cons_ne_nil next more)
      show s ++ sep ++ Text.joinStrings sep (next :: more ++ [last]) = _
      rw [later]
      show _ = s ++ sep ++ Text.joinStrings sep (next :: more) ++ sep ++ last
      simp [String.append_assoc]

/-- From the root on, an entry is called by its names with slashes between them. -/
theorem fromRoot_descend (path : Path) {names : Route} (named : ∀ name ∈ names, name ≠ "") :
    (Spot.descend ⟨path, ""⟩ names).fromRoot = Text.joinStrings "/" names := by
  induction names using List.reverseRecOn with
  | nil => rfl
  | append_singleton front last ih =>
    have before := ih fun name hname => named name (List.mem_append_left _ hname)
    unfold descend at before ⊢
    rw [List.foldl_append, List.foldl_cons, List.foldl_nil, below, entryFromRoot, before]
    by_cases none : front = []
    · subst none
      rfl
    · rw [joinStrings_concat "/" none, if_neg]
      -- the first name is not empty
      rcases List.exists_cons_of_ne_nil none with ⟨first, rest, rfl⟩
      have some : first ≠ "" := named first (by simp)
      cases rest with
      | nil => exact some
      | cons next more =>
        show ¬ first ++ "/" ++ Text.joinStrings "/" (next :: more) = ""
        simp

end Spot

namespace Survey

variable (s : Survey)

/-- The names lead from the entry at a spot to a source, through directories that may be listed. -/
structure Wants (spot : Spot) (e : Entry) (names : Route) : Prop where
  entry : ∃ f, entryAt e names = some f ∧ s.files.StandsAsFile (spot.descend names).path f
  listed : ∀ front, front <+: names → front ≠ names → ∀ f, entryAt e front = some f → f.listable = true
  kept : ∀ front, front ≠ [] → front <+: names →
    s.rules.ignores (spot.descend front).fromRoot = false
  source : ∃ name, names.getLast? = some name ∧ s.settings.isSource name = true
  fits : s.files.Fits s.settings (spot.descend names).path

variable {s} {spot : Spot} {entries : List (String × Entry)} {listable : Bool} {name : String}
  {rest : Route}

theorem Wants.ne_nil {e : Entry} (h : s.Wants spot e rest) : rest ≠ [] := by
  rintro rfl
  rcases h.source with ⟨name, last, -⟩
  cases last

theorem not_wants_of_not_isFolder {e : Entry} (plain : e.isFolder = false) : ¬ s.Wants spot e rest := by
  intro h
  rcases List.exists_cons_of_ne_nil h.ne_nil with ⟨name, more, rfl⟩
  rcases h.entry with ⟨f, found, -⟩
  cases e with
  | file => cases found
  | link => cases found
  | folder => cases plain

/-- Nothing is wanted from a directory whose path is too long to be listed. -/
theorem not_wants_of_long {e : Entry} (named : e.WellNamed)
    (long : FileTree.pathLimit < spot.path.utf8ByteSize) : ¬ s.Wants spot e rest := by
  intro h
  rcases h.entry with ⟨f, found, -⟩
  have plain : ∀ name ∈ rest, Path.Plain name.toList := fun name hname => (named rest f found name hname).plain
  have longer := Path.utf8ByteSize_le_foldl_join spot.path plain
  have short := h.fits.utf8ByteSize_le
  rw [Spot.path_descend] at short
  omega

/-- Nothing is wanted from a directory that cannot be listed. -/
theorem not_wants_of_barrier {error : FileError} (named : (Entry.folder entries listable).WellNamed)
    (barred : spot.barrier? listable = some error) : ¬ s.Wants spot (.folder entries listable) rest := by
  by_cases long : FileTree.pathLimit < spot.path.utf8ByteSize
  · exact not_wants_of_long named long
  · intro h
    have listing : listable = true := h.listed [] List.nil_prefix h.ne_nil.symm _ rfl
    rw [Spot.barrier?, if_neg long, if_pos listing] at barred
    cases barred

theorem countsAsFolder_eq_false_iff {f : Entry} :
    s.countsAsFolder spot name f = false ↔ s.files.StandsAsFile (spot.entryPath name) f := by
  cases f with
  | file => simp [countsAsFolder, FileTree.StandsAsFile]
  | link => simp [countsAsFolder, FileTree.StandsAsFile]
  | folder => simp [countsAsFolder, FileTree.StandsAsFile]

/-- A single name leads to a source if it is listed among the files and accepted. -/
theorem wants_singleton_iff (nodup : (entries.map Prod.fst).Nodup) :
    s.Wants spot (.folder entries) [name] ↔
      name ∈ s.fileNames spot entries ∧ s.Accepts spot name := by
  have at_name (f : Entry) : entryAt (.folder entries) [name] = some f ↔ (name, f) ∈ entries := by
    rw [← Entry.child?_eq_some_iff nodup, FileTree.entryAt_cons_folder]
    cases (Entry.folder entries).child? name <;> rfl
  rw [mem_fileNames]
  constructor
  · intro h
    rcases h.entry with ⟨f, found, file⟩
    rcases h.source with ⟨last, only, source⟩
    cases only
    have kept := h.kept [name] (by simp) (List.prefix_refl _)
    exact ⟨⟨f, (at_name f).mp found, countsAsFolder_eq_false_iff.mpr file⟩, source, kept, h.fits⟩
  · rintro ⟨⟨f, listed, file⟩, source, kept, fits⟩
    refine ⟨⟨f, (at_name f).mpr listed, countsAsFolder_eq_false_iff.mp file⟩, ?_, ?_,
      ⟨name, rfl, source⟩, fits⟩
    · intro front isPrefix proper e here
      cases front with
      | nil =>
        cases here
        rfl
      | cons first more =>
        rcases List.cons_prefix_cons.mp isPrefix with ⟨rfl, nothing⟩
        cases List.prefix_nil.mp nothing
        exact absurd rfl proper
    · intro front some isPrefix
      rcases List.exists_cons_of_ne_nil some with ⟨first, more, rfl⟩
      rcases List.cons_prefix_cons.mp isPrefix with ⟨rfl, nothing⟩
      cases List.prefix_nil.mp nothing
      exact kept

/-- More names lead to a source if the first one is that of a directory which is not left out, and the
others lead to a source from there. -/
theorem wants_cons_iff (nodup : (entries.map Prod.fst).Nodup) (some : rest ≠ []) :
    s.Wants spot (.folder entries) (name :: rest) ↔
      ∃ sub listable, (name, Entry.folder sub listable) ∈ entries ∧
        s.rules.ignores (spot.entryFromRoot name) = false ∧
        s.Wants (spot.below name) (.folder sub listable) rest := by
  have last : (name :: rest).getLast? = rest.getLast? := by
    rcases List.exists_cons_of_ne_nil some with ⟨next, more, rfl⟩
    rfl
  constructor
  · intro h
    rcases h.entry with ⟨f, found, file⟩
    rw [FileTree.entryAt_cons_folder] at found
    rcases Option.bind_eq_some_iff.mp found with ⟨c, child, found⟩
    have folder : ∃ sub listable, c = .folder sub listable := by
      rcases List.exists_cons_of_ne_nil some with ⟨next, more, rfl⟩
      cases c with
      | file => cases found
      | link => cases found
      | folder sub listable => exact ⟨sub, listable, rfl⟩
    rcases folder with ⟨sub, listable, rfl⟩
    refine ⟨sub, listable, (Entry.child?_eq_some_iff nodup).mp child,
      h.kept [name] (by simp) (by simp), ⟨f, found, file⟩, ?_, ?_, last ▸ h.source, h.fits⟩
    · intro front isPrefix proper e here
      apply h.listed (name :: front) (List.cons_prefix_cons.mpr ⟨rfl, isPrefix⟩)
        (fun same => proper (List.cons.inj same).2)
      rw [FileTree.entryAt_cons_folder, child]
      exact here
    · intro front _ isPrefix
      exact h.kept (name :: front) (by simp) (List.cons_prefix_cons.mpr ⟨rfl, isPrefix⟩)
  · rintro ⟨sub, listable, member, kept, h⟩
    rcases h.entry with ⟨f, found, file⟩
    have child : (Entry.folder entries).child? name = Option.some (.folder sub listable) :=
      (Entry.child?_eq_some_iff nodup).mpr member
    refine ⟨⟨f, ?_, file⟩, ?_, ?_, last ▸ h.source, h.fits⟩
    · rw [FileTree.entryAt_cons_folder, child]
      exact found
    · intro front isPrefix proper e here
      cases front with
      | nil =>
        cases here
        rfl
      | cons first more =>
        rcases List.cons_prefix_cons.mp isPrefix with ⟨rfl, below⟩
        rw [FileTree.entryAt_cons_folder, child] at here
        exact h.listed more below (fun same => proper (congrArg _ same)) e here
    · intro front nonempty isPrefix
      rcases List.exists_cons_of_ne_nil nonempty with ⟨first, more, rfl⟩
      rcases List.cons_prefix_cons.mp isPrefix with ⟨rfl, below⟩
      by_cases none : more = []
      · subst none
        exact kept
      · exact h.kept more none below

/-! ## What is found -/

variable (s spot) in
/-- The sub-directories that are entered, by name. -/
def entered (entries : List (String × Entry)) : List (String × Entry) :=
  (entries.filter fun c => s.Enters spot c).mergeSort fun a b => a.1 ≤ b.1

theorem mem_entered {c : String × Entry} :
    c ∈ s.entered spot entries ↔ c ∈ entries ∧ c.2.isFolder = true ∧
      s.rules.ignores (spot.entryFromRoot c.1) = false := by
  rw [entered, List.mem_mergeSort, List.mem_filter, decide_eq_true_eq]
  rfl

theorem nodup_entered (nodup : (entries.map Prod.fst).Nodup) :
    ((s.entered spot entries).map Prod.fst).Nodup := by
  rw [entered, ((List.mergeSort_perm _ _).map Prod.fst).nodup_iff]
  exact nodup.sublist (List.filter_sublist.map Prod.fst)

/-- A list with distinct keys that is sorted by them is strictly sorted. -/
theorem pairwise_lt_of_sorted (key : α → String) {l : List α}
    (sorted : l.Pairwise fun a b => key a ≤ key b) (nodup : (l.map key).Nodup) :
    l.Pairwise fun a b => key a < key b := by
  have distinct : l.Pairwise fun a b => key a ≠ key b := List.pairwise_map.mp nodup
  apply (sorted.and distinct).imp
  rintro a b ⟨le, ne⟩
  by_contra other
  exact ne (String.le_antisymm le (String.not_lt.mp other))

/-- The files of a directory that are accepted, and then what is found in the sub-directories, by name. -/
theorem value_sourcesIn_eq_flatMap (free : spot.barrier? listable = none) :
    (s.sourcesIn spot (.folder entries listable)).value =
      ((s.fileNames spot entries).filter fun name => s.Accepts spot name).map spot.entryPath ++
        (s.entered spot entries).flatMap fun c => (s.sourcesIn (spot.below c.1) c.2).value := by
  have sorted := List.map_mergeSort (f := fun c : String × Entry =>
      (c.1, (s.sourcesIn (spot.below c.1) c.2).value))
    (r := fun a b => decide (a.1 ≤ b.1)) (s := fun a b => decide (a.1 ≤ b.1))
    (l := entries.filter fun c => s.Enters spot c) (fun _ _ _ _ => rfl)
  rw [value_sourcesIn_folder s entries free, value_sourcesBelow, ← sorted, List.flatMap_map]
  rfl

variable (s) in
/-- The names lead to what is found in an entry and below, in the order in which it is found. -/
structure Lists (spot : Spot) (e : Entry) (routes : List Route) : Prop where
  paths : (s.sourcesIn spot e).value = routes.map fun names => (spot.descend names).path
  mem : ∀ names, names ∈ routes ↔ s.Wants spot e names
  sorted : routes.Pairwise FileTree.ListedBefore

theorem lists_of_not_wants {e : Entry} (nothing : (s.sourcesIn spot e).value = [])
    (unwanted : ∀ names, ¬ s.Wants spot e names) : s.Lists spot e [] where
  paths := nothing
  mem names := iff_of_false List.not_mem_nil (unwanted names)
  sorted := List.Pairwise.nil

/-- A directory lists its own files and then what its sub-directories list. -/
theorem lists_folder (free : spot.barrier? true = none)
    (nodup : (entries.map Prod.fst).Nodup) {sub : String × Entry → List Route}
    (below : ∀ c ∈ s.entered spot entries, s.Lists (spot.below c.1) c.2 (sub c)) :
    s.Lists spot (.folder entries)
      (((s.fileNames spot entries).filter fun name => s.Accepts spot name).map (fun name => [name]) ++
        (s.entered spot entries).flatMap fun c => (sub c).map (c.1 :: ·)) := by
  have some {c : String × Entry} (hc : c ∈ s.entered spot entries) {names : Route}
      (listed : names ∈ sub c) : names ≠ [] := (((below c hc).mem names).mp listed).ne_nil
  constructor
  · rw [value_sourcesIn_eq_flatMap free, List.map_append, List.map_map, List.map_flatMap]
    congr 1
    apply List.flatMap_congr
    intro c hc
    rw [(below c hc).paths, List.map_map]
    rfl
  · intro names
    rw [List.mem_append, List.mem_map, List.mem_flatMap]
    constructor
    · rintro (⟨name, listed, rfl⟩ | ⟨c, hc, listed⟩)
      · rw [List.mem_filter, decide_eq_true_eq] at listed
        exact (wants_singleton_iff nodup).mpr listed
      · rcases List.mem_map.mp listed with ⟨rest, deeper, rfl⟩
        rcases mem_entered.mp hc with ⟨member, folder, kept⟩
        have wanted := ((below c hc).mem rest).mp deeper
        rcases c with ⟨name, e⟩
        cases e with
        | file => cases folder
        | link => cases folder
        | folder es listable =>
          exact (wants_cons_iff nodup wanted.ne_nil).mpr ⟨es, listable, member, kept, wanted⟩
    · intro wanted
      rcases List.exists_cons_of_ne_nil wanted.ne_nil with ⟨name, rest, rfl⟩
      by_cases last : rest = []
      · subst last
        have listed := (wants_singleton_iff nodup).mp wanted
        exact Or.inl ⟨name, List.mem_filter.mpr ⟨listed.1, decide_eq_true listed.2⟩, rfl⟩
      · rcases (wants_cons_iff nodup last).mp wanted with ⟨es, listable, member, kept, deeper⟩
        have hc : (name, Entry.folder es listable) ∈ s.entered spot entries :=
          mem_entered.mpr ⟨member, rfl, kept⟩
        exact Or.inr ⟨_, hc, List.mem_map.mpr ⟨rest, ((below _ hc).mem rest).mpr deeper, rfl⟩⟩
  · rw [List.pairwise_append]
    refine ⟨?_, ?_, ?_⟩
    -- files by name
    · rw [List.pairwise_map]
      have strict : (s.fileNames spot entries).Pairwise fun a b => a < b :=
        pairwise_lt_of_sorted id (pairwise_mergeSort_key id _)
          (by rw [List.map_id]; exact nodup_fileNames s spot nodup)
      exact (strict.filter _).imp FileTree.ListedBefore.file
    -- sub-directories by name, and what is found in one of them as it is found there
    · rw [List.pairwise_flatMap]
      constructor
      · intro c hc
        rw [List.pairwise_map]
        exact (below c hc).sorted.imp (FileTree.ListedBefore.inside c.1)
      · have strict : (s.entered spot entries).Pairwise fun a b => a.1 < b.1 :=
          pairwise_lt_of_sorted Prod.fst (pairwise_mergeSort_key Prod.fst _) (nodup_entered nodup)
        apply strict.imp_of_mem
        intro c d hc hd less names hnames names' hnames'
        rcases List.mem_map.mp hnames with ⟨rest, listed, rfl⟩
        rcases List.mem_map.mp hnames' with ⟨rest', listed', rfl⟩
        exact FileTree.ListedBefore.of_folders less (some hc listed) (some hd listed')
    -- files before sub-directories
    · intro file hfile names hnames
      rcases List.mem_map.mp hfile with ⟨name, -, rfl⟩
      rcases List.mem_flatMap.mp hnames with ⟨c, hc, hnames⟩
      rcases List.mem_map.mp hnames with ⟨rest, listed, rfl⟩
      exact FileTree.ListedBefore.of_file name (some hc listed)

/-- What is found in an entry and below: just what is wanted, in the order of a search. -/
theorem exists_lists {e : Entry} (tidy : e.Tidy) (named : e.WellNamed) :
    ∃ routes, s.Lists spot e routes := by
  induction e using Entry.induction_on generalizing spot with
  | file bytes =>
    exact ⟨[], lists_of_not_wants (value_sourcesIn_of_not_isFolder rfl) fun _ =>
      not_wants_of_not_isFolder rfl⟩
  | link target =>
    exact ⟨[], lists_of_not_wants (value_sourcesIn_of_not_isFolder rfl) fun _ =>
      not_wants_of_not_isFolder rfl⟩
  | folder entries listable ih =>
    cases tidy with | folder nodup tidy
    cases barrier : spot.barrier? listable with
    | none =>
      have listing : listable = true := (Spot.barrier?_eq_none_iff.mp barrier).2
      subst listing
      have below (c : String × Entry) :
          ∃ routes, c ∈ entries → s.Lists (spot.below c.1) c.2 routes := by
        by_cases listed : c ∈ entries
        · rcases ih c listed (tidy c listed) (named.below nodup listed) with ⟨routes, lists⟩
          exact ⟨routes, fun _ => lists⟩
        · exact ⟨[], fun h => absurd h listed⟩
      choose sub lists using below
      exact ⟨_, lists_folder barrier nodup fun c hc => lists c (mem_entered.mp hc).1⟩
    | some error =>
      exact ⟨[], lists_of_not_wants (value_sourcesIn_of_barrier s entries barrier) fun _ =>
        not_wants_of_barrier named barrier⟩

end Survey

/-! ## Below a root -/

section

variable {files : FileTree} {settings : Settings} {root path : Path} {base names : Route}
  {entries : List (String × Entry)} {listable : Bool}

theorem wants_root_iff (named : files.root.WellNamed)
    (folder : entryAt files.root base = some (.folder entries listable)) :
    (Survey.mk files settings).Wants ⟨path, ""⟩ (.folder entries listable) names ↔
      files.SourceBelow settings path base names ∧ files.ListableAlong base names := by
  have reached (front : Route) :
      entryAt files.root (base ++ front) = entryAt (.folder entries listable) front := by
    rw [FileTree.entryAt_append, folder, Option.bind_some]
  have fromRoot {f : Entry} (found : entryAt (.folder entries listable) names = some f) {front : Route}
      (isPrefix : front <+: names) :
      (Spot.descend ⟨path, ""⟩ front).fromRoot = Text.joinStrings "/" front := by
    apply Spot.fromRoot_descend
    rintro name hname rfl
    have plain := (named.at folder names f found "" (isPrefix.subset hname)).plain
    exact plain.nonempty rfl
  have source (name : String) :
      settings.isSource name = true ↔ Path.extension name ∈ settings.sourceExtensions :=
    List.contains_iff_mem
  have path_eq : (Spot.descend ⟨path, ""⟩ names).path = names.foldl Path.join path :=
    Spot.path_descend _ names
  constructor
  · intro h
    rcases h.entry with ⟨f, found, file⟩
    rcases h.source with ⟨name, last, isSource⟩
    refine ⟨⟨⟨f, (reached names).trans found, path_eq ▸ file⟩, ?_,
      ⟨name, last, (source name).mp isSource⟩, path_eq ▸ h.fits⟩, ?_⟩
    · intro front some isPrefix
      rw [← fromRoot found isPrefix]
      exact h.kept front some isPrefix
    · intro front isPrefix proper e here
      exact h.listed front isPrefix proper e ((reached front).symm.trans here)
  · rintro ⟨h, listed⟩
    rcases h.entry with ⟨f, found, file⟩
    rcases h.source with ⟨name, last, isSource⟩
    rw [reached] at found
    refine ⟨⟨f, found, path_eq ▸ file⟩, ?_, ?_, ⟨name, last, (source name).mpr isSource⟩,
      path_eq ▸ h.fits⟩
    · intro front isPrefix proper e here
      exact listed front isPrefix proper e ((reached front).trans here)
    · intro front some isPrefix
      rw [fromRoot found isPrefix]
      exact h.kept front some isPrefix

/-- What is found below a root, by names from there on. -/
theorem exists_routes_below (settings : Settings) (tidy : files.root.Tidy) (named : files.root.WellNamed)
    (absolute : files.absolute root = .ok path) (place : files.placeOf? path = some base)
    (folder : entryAt files.root base = some (.folder entries listable)) :
    ∃ routes : List Route,
      (enumerate files settings root).outcome =
        .ok (routes.map fun names => names.foldl Path.join path) ∧
      (∀ names, names ∈ routes ↔
        files.SourceBelow settings path base names ∧ files.ListableAlong base names) ∧
      routes.Pairwise FileTree.ListedBefore := by
  have entry : files.entry path = .ok (.folder entries listable) :=
    FileTree.entry_eq_ok_iff.mpr ⟨base, place, folder⟩
  have listed : ∃ routes,
      (Survey.mk files settings).Lists ⟨path, ""⟩ (.folder entries listable) routes :=
    Survey.exists_lists (FileTree.tidy_of_entryAt tidy folder) (named.at folder)
  rcases listed with ⟨routes, lists⟩
  refine ⟨routes, ?_, fun names => (lists.mem names).trans (wants_root_iff named folder), lists.sorted⟩
  rw [outcome_enumerate_folder absolute entry, lists.paths]
  congr 2
  funext names
  exact Spot.path_descend _ names

/-- A source below a root has plain names. -/
theorem FileTree.SourceBelow.plain (named : files.root.WellNamed)
    (h : files.SourceBelow settings path base names) : ∀ name ∈ names, Path.Plain name.toList := by
  rcases h.entry with ⟨e, found, -⟩
  intro name hname
  exact (named _ e found name (List.mem_append_right base hname)).plain

theorem FileTree.SourceBelow.ne_nil (h : files.SourceBelow settings path base names) : names ≠ [] := by
  rintro rfl
  rcases h.source with ⟨name, last, -⟩
  cases last

end

/-- Both trees hold the same at every place; directories may list it in another order. -/
structure FileTree.Relisted (t t' : FileTree) : Prop where
  cwd : t.cwd = t'.cwd
  limit : t.nestingLimit = t'.nestingLimit
  same : ∀ ρ, (entryAt t.root ρ).map Entry.face = (entryAt t'.root ρ).map Entry.face

namespace FileTree.Relisted

variable {t t' : FileTree} {settings : Settings}

theorem symm (h : t.Relisted t') : t'.Relisted t where
  cwd := h.cwd.symm
  limit := h.limit.symm
  same ρ := (h.same ρ).symm

theorem wellNamed (h : t.Relisted t') (named : t.root.WellNamed) : t'.root.WellNamed := by
  intro ρ f found
  have same := h.same ρ
  rw [found] at same
  rcases Option.map_eq_some_iff.mp same with ⟨e, found', -⟩
  exact named ρ e found'

theorem entryAt_empty (named : t.root.WellNamed) : entryAt t.root [""] = none := by
  cases found : entryAt t.root [""] with
  | none => rfl
  | some e => exact absurd rfl (named [""] e found "" (by simp)).plain.nonempty

/-- Nothing stands under the empty name, so the trees may well be said to differ there. -/
theorem differsAt (h : t.Relisted t') (named : t.root.WellNamed) : DiffersAt [""] t t' := by
  refine ⟨h.cwd, h.limit, fun ρ _ => h.same ρ, ?_, ?_⟩
  · intro e found
    rw [entryAt_empty named] at found
    cases found
  · intro e found
    rw [entryAt_empty (h.wellNamed named)] at found
    cases found

theorem fits (h : t.Relisted t') (named : t.root.WellNamed) {p : Path} (fit : t.Fits settings p) :
    t'.Fits settings p := by
  apply (h.differsAt named).fits_of_ne ?_ fit
  intro place
  rcases fit with ⟨size, known, -⟩
  rcases FileTree.size_eq_ok_iff.mp known with ⟨ρ, e, place', there, -⟩
  rw [place] at place'
  cases place'
  rw [entryAt_empty named] at there
  cases there

end FileTree.Relisted

/-- A directory `/w` with a source in a sub-directory, a link to that sub-directory, a link to a file, a
broken link, and a directory that is always left out. -/
def linkedTree : FileTree where
  root := .folder [("w", .folder [
    ("sub", .folder [("c.js", .file [])]), ("again", .link "sub"), ("b.js", .file []),
    ("gone.js", .link "nowhere"), ("A.TS", .link "b.js"), ("dist", .folder [("d.js", .file [])])])]
  cwd := some "/w"

end ContainerKeys
