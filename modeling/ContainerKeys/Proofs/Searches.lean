import ContainerKeys.Proofs.Builds
import ContainerKeys.Proofs.FileTrees
import Mathlib.Data.List.Sort

/-!
# Searches in trees that differ in one file

A search gives the accepted files by name, whatever the order in which directories are listed. So it gives
the same in two trees that differ in one file, as long as both list that file if it counts as a source, and
what is found in one of them fits in the other.

* `Survey.value_sourcesBelow` — the sub-directories that are entered, each with what is found in it.
* `FileTree.DiffersAt.value_sourcesIn_eq` — the search below one directory.
* `FileTree.DiffersAt.value_findFiles_eq` — the search of a build.
-/

namespace ContainerKeys

/-! ## Sorted lists -/

/-- Two lists sorted by a key that no two elements share are the same if they have the same elements. -/
theorem eq_of_sorted_of_mem_iff {key : α → String} {l l' : List α}
    (sorted : l.Pairwise fun a b => key a ≤ key b) (sorted' : l'.Pairwise fun a b => key a ≤ key b)
    (nodup : (l.map key).Nodup) (nodup' : (l'.map key).Nodup) (same : ∀ a, a ∈ l ↔ a ∈ l') :
    l = l' := by
  have perm : l.Perm l' := (List.perm_ext_iff_of_nodup nodup.of_map nodup'.of_map).mpr same
  refine perm.eq_of_pairwise ?_ sorted sorted'
  intro a b ha hb lower higher
  exact List.inj_on_of_nodup_map nodup ha ((same b).mpr hb) (String.le_antisymm lower higher)

theorem key_le_trans (key : α → String) (a b c : α) (first : decide (key a ≤ key b) = true)
    (second : decide (key b ≤ key c) = true) : decide (key a ≤ key c) = true := by
  simp only [decide_eq_true_eq] at first second ⊢
  exact String.le_trans first second

theorem key_le_total (key : α → String) (a b : α) :
    (decide (key a ≤ key b) || decide (key b ≤ key a)) = true := by
  simpa using String.le_total (key a) (key b)

theorem pairwise_mergeSort_key (key : α → String) (l : List α) :
    (l.mergeSort fun a b => key a ≤ key b).Pairwise fun a b => key a ≤ key b := by
  apply (List.pairwise_mergeSort (key_le_trans key) (key_le_total key) l).imp
  intro a b ordered
  simpa using ordered

namespace Survey

variable (s : Survey) (spot : Spot)

theorem mem_fileNames {entries : List (String × Entry)} {name : String} :
    name ∈ s.fileNames spot entries ↔
      ∃ e, (name, e) ∈ entries ∧ s.countsAsFolder spot name e = false := by
  unfold fileNames
  rw [List.mem_mergeSort, List.mem_map]
  constructor
  · rintro ⟨⟨n, e⟩, member, rfl⟩
    obtain ⟨listed, plain⟩ := List.mem_filter.mp member
    exact ⟨e, listed, by simpa using plain⟩
  · rintro ⟨e, listed, plain⟩
    exact ⟨(name, e), List.mem_filter.mpr ⟨listed, by simp [plain]⟩, rfl⟩

theorem nodup_fileNames {entries : List (String × Entry)}
    (nodup : (entries.map Prod.fst).Nodup) : (s.fileNames spot entries).Nodup := by
  unfold fileNames
  rw [(List.mergeSort_perm _ _).nodup_iff]
  exact nodup.sublist (List.filter_sublist.map Prod.fst)

/-- The entry is a directory that the globs do not leave out. -/
def Enters (c : String × Entry) : Prop :=
  c.2.isFolder = true ∧ s.rules.ignores (spot.entryFromRoot c.1) = false

instance (c : String × Entry) : Decidable (s.Enters spot c) :=
  inferInstanceAs (Decidable (_ ∧ _))

/-- The sub-directories that are entered, each with what is found in it. -/
theorem value_sourcesBelow (entries : List (String × Entry)) :
    (s.sourcesBelow spot entries).value =
      (entries.filter fun c => s.Enters spot c).map fun c =>
        (c.1, (s.sourcesIn (spot.below c.1) c.2).value) := by
  induction entries with
  | nil => rw [sourcesBelow]; rfl
  | cons c rest ih =>
    obtain ⟨name, e⟩ := c
    cases e with
    | file bytes => simp [sourcesBelow, ih, Enters, Entry.isFolder]
    | link target => simp [sourcesBelow, ih, Enters, Entry.isFolder]
    | folder es listable =>
      rw [sourcesBelow]
      cases ignored : s.rules.ignores (spot.entryFromRoot name) with
      | true =>
        rw [List.filter_cons_of_neg (by simp [Enters, ignored])]
        simp [ih]
      | false =>
        rw [List.filter_cons_of_pos (by simp [Enters, Entry.isFolder, ignored])]
        simp [ih]

theorem value_sourcesIn_of_not_isFolder {s : Survey} {spot : Spot} {e : Entry}
    (plain : e.isFolder = false) : (s.sourcesIn spot e).value = [] := by
  cases e with
  | file => simp [sourcesIn]
  | link => simp [sourcesIn]
  | folder => cases plain

theorem mem_sourcesBelow {entries : List (String × Entry)} {found : String × List Path} :
    found ∈ (s.sourcesBelow spot entries).value ↔
      ∃ es listable, (found.1, Entry.folder es listable) ∈ entries ∧
        s.rules.ignores (spot.entryFromRoot found.1) = false ∧
        found.2 = (s.sourcesIn (spot.below found.1) (.folder es listable)).value := by
  rw [value_sourcesBelow, List.mem_map]
  constructor
  · rintro ⟨⟨name, e⟩, member, rfl⟩
    obtain ⟨listed, enters⟩ := List.mem_filter.mp member
    obtain ⟨folder, kept⟩ : s.Enters spot (name, e) := by simpa using enters
    cases e with
    | file => cases folder
    | link => cases folder
    | folder es listable => exact ⟨es, listable, listed, kept, rfl⟩
  · rintro ⟨es, listable, listed, kept, value⟩
    refine ⟨(found.1, .folder es listable), List.mem_filter.mpr ⟨listed, ?_⟩, Prod.ext rfl value.symm⟩
    simp [Enters, Entry.isFolder, kept]

/-- An accepted file of a directory is found. -/
theorem mem_sourcesIn_of_accepts {s : Survey} {spot : Spot} {entries : List (String × Entry)}
    {listable : Bool} (free : spot.barrier? listable = none) {name : String}
    (listed : name ∈ s.fileNames spot entries) (accepted : s.Accepts spot name) :
    spot.entryPath name ∈ (s.sourcesIn spot (.folder entries listable)).value := by
  rw [value_sourcesIn_folder s entries free]
  apply List.mem_append_left
  exact List.mem_map_of_mem (List.mem_filter.mpr ⟨listed, decide_eq_true accepted⟩)

/-- What is found in a sub-directory that is not left out is found. -/
theorem mem_sourcesIn_of_below {s : Survey} {spot : Spot} {entries sub : List (String × Entry)}
    {listable listable' : Bool} (free : spot.barrier? listable = none) {name : String}
    (listed : (name, Entry.folder sub listable') ∈ entries)
    (kept : s.rules.ignores (spot.entryFromRoot name) = false) {p : Path}
    (found : p ∈ (s.sourcesIn (spot.below name) (.folder sub listable')).value) :
    p ∈ (s.sourcesIn spot (.folder entries listable)).value := by
  rw [value_sourcesIn_folder s entries free]
  apply List.mem_append_right
  have entered : (name, (s.sourcesIn (spot.below name) (.folder sub listable')).value) ∈
      (s.sourcesBelow spot entries).value :=
    (mem_sourcesBelow s spot).mpr ⟨sub, listable', listed, kept, rfl⟩
  exact List.mem_flatMap.mpr ⟨_, List.mem_mergeSort.mpr entered, found⟩

theorem nodup_sourcesBelow {entries : List (String × Entry)}
    (nodup : (entries.map Prod.fst).Nodup) :
    ((s.sourcesBelow spot entries).value.map Prod.fst).Nodup := by
  rw [value_sourcesBelow, List.map_map]
  exact nodup.sublist (List.filter_sublist.map Prod.fst)

end Survey

namespace Build

variable {files : FileTree} {root path : Path}

theorem value_filesBelow_folder (settings : Settings) {entries : List (String × Entry)}
    {listable : Bool} (absolute : files.absolute root = .ok path)
    (folder : files.entry path = .ok (.folder entries listable)) :
    (filesBelow files settings root).value =
      (Survey.sourcesIn ⟨files, settings⟩ ⟨path, ""⟩ (.folder entries listable)).value := by
  rw [value_filesBelow, outcome_enumerate_folder absolute folder]

/-- A root that is no directory gives nothing. -/
theorem value_filesBelow_of_not_folder {settings : Settings}
    (none : ∀ path, files.absolute root = .ok path → files.isFolder path = false) :
    (filesBelow files settings root).value = [] := by
  rw [value_filesBelow]
  cases absolute : files.absolute root with
  | error fault =>
    rw [enumerate, absolute]
    rfl
  | ok path =>
    rw [outcome_enumerate_of_not_folder absolute]
    intro entries listable folder
    have plain := none path absolute
    rw [FileTree.isFolder, folder] at plain
    cases plain

end Build

/-! ## Two trees -/

/-- The size of what the path leads to is known and within the limit. -/
def FileTree.Fits (t : FileTree) (settings : Settings) (p : Path) : Prop :=
  ∃ size, t.size p = .ok size ∧ size ≤ settings.maxFileSize

namespace FileTree.DiffersAt

variable {t t' : FileTree} {r base : Route} {settings : Settings} {spot : Spot}
  {es es' : List (String × Entry)} {listable listable' : Bool}

/-- A path that does not lead to `r` fits in both trees or in none. -/
theorem fits_of_ne (d : DiffersAt r t t') {p : Path} (elsewhere : t.placeOf? p ≠ some r)
    (fit : t.Fits settings p) : t'.Fits settings p := by
  obtain ⟨size, known, small⟩ := fit
  exact ⟨size, d.size_of_ne elsewhere known, small⟩

/-- What stands at `r` counts as a source by its name only if it stands in both trees. -/
def KeepsSource (settings : Settings) (r : Route) (t t' : FileTree) : Prop :=
  ∀ name, r.getLast? = some name → settings.isSource name = true →
    (entryAt t.root r).isSome = (entryAt t'.root r).isSome

theorem KeepsSource.symm (keeps : KeepsSource settings r t t') : KeepsSource settings r t' t :=
  fun name last source => (keeps name last source).symm

theorem isFolder_eq_false (d : DiffersAt r t t') {e e' : Entry} (here : entryAt t.root base = some e)
    (here' : entryAt t'.root base = some e') (plain : e.isFolder = false) : e'.isFolder = false := by
  cases e' with
  | file => rfl
  | link => rfl
  | folder es' =>
    obtain ⟨es, same⟩ := d.symm.folder here'
    rw [here] at same
    cases same
    cases plain

/-- A name with a source extension is a file name in both trees or in none. -/
theorem mem_fileNames (d : DiffersAt r t t') (keeps : KeepsSource settings r t t')
    (nodup : (es.map Prod.fst).Nodup) (nodup' : (es'.map Prod.fst).Nodup)
    (here : entryAt t.root base = some (.folder es listable))
    (here' : entryAt t'.root base = some (.folder es' listable')) {name : String}
    (source : settings.isSource name = true)
    (listed : name ∈ (Survey.mk t settings).fileNames spot es) :
    name ∈ (Survey.mk t' settings).fileNames spot es' := by
  obtain ⟨e, member, plain⟩ := (Survey.mem_fileNames _ spot).mp listed
  have found : entryAt t.root (base ++ [name]) = some e := (entryAt_concat_iff here nodup).mpr member
  have listed' {e' : Entry} (h : entryAt t'.root (base ++ [name]) = some e') : (name, e') ∈ es' :=
    (entryAt_concat_iff here' nodup').mp h
  rw [Survey.mem_fileNames]
  cases e with
  | folder => cases plain
  | link target =>
    refine ⟨.link target, listed' (d.link found), ?_⟩
    rw [Survey.countsAsFolder, ← d.isFolder_eq]
    exact plain
  | file bytes =>
    rcases d.file_or_none found with ⟨bytes', found'⟩ | ⟨rfl, none'⟩
    · exact ⟨.file bytes', listed' found', rfl⟩
    -- only one tree has the file, so it does not count as a source
    · have both := keeps name (List.getLast?_concat ..) source
      rw [found, none'] at both
      cases both

/-- A directory has the same accepted files in both trees, if those of one tree fit in the other. -/
theorem accepted_fileNames_eq (d : DiffersAt r t t') (keeps : KeepsSource settings r t t')
    (spot : Spot) (nodup : (es.map Prod.fst).Nodup) (nodup' : (es'.map Prod.fst).Nodup)
    (here : entryAt t.root base = some (.folder es listable))
    (here' : entryAt t'.root base = some (.folder es' listable'))
    (fit : ∀ name ∈ (Survey.mk t settings).fileNames spot es,
      (Survey.mk t settings).Accepts spot name → t'.Fits settings (spot.entryPath name))
    (fit' : ∀ name ∈ (Survey.mk t' settings).fileNames spot es',
      (Survey.mk t' settings).Accepts spot name → t.Fits settings (spot.entryPath name)) :
    (((Survey.mk t settings).fileNames spot es).filter fun name =>
        (Survey.mk t settings).Accepts spot name) =
      ((Survey.mk t' settings).fileNames spot es').filter fun name =>
        (Survey.mk t' settings).Accepts spot name := by
  have sorted (s : Survey) (es : List (String × Entry)) :
      ((s.fileNames spot es).filter fun name => s.Accepts spot name).Pairwise fun a b => a ≤ b :=
    (pairwise_mergeSort_key id _).filter _
  refine eq_of_sorted_of_mem_iff (sorted _ es) (sorted _ es') ?_ ?_ fun name => ?_
  · rw [List.map_id']
    exact (Survey.nodup_fileNames _ spot nodup).filter _
  · rw [List.map_id']
    exact (Survey.nodup_fileNames _ spot nodup').filter _
  · simp only [List.mem_filter, decide_eq_true_eq]
    constructor
    · rintro ⟨listed, accepted⟩
      exact ⟨d.mem_fileNames keeps nodup nodup' here here' accepted.1 listed,
        accepted.1, accepted.2.1, fit name listed accepted⟩
    · rintro ⟨listed, accepted⟩
      exact ⟨d.symm.mem_fileNames keeps.symm nodup' nodup here' here accepted.1 listed,
        accepted.1, accepted.2.1, fit' name listed accepted⟩

/-- What is found in the sub-directories of one tree is found in those of the other, if the search gives
the same in each of them. -/
theorem mem_sourcesBelow (d : DiffersAt r t t') (nodup : (es.map Prod.fst).Nodup)
    (nodup' : (es'.map Prod.fst).Nodup) (here : entryAt t.root base = some (.folder es listable))
    (here' : entryAt t'.root base = some (.folder es' listable'))
    (same : ∀ name sub sub' l, (name, Entry.folder sub l) ∈ es → (name, Entry.folder sub' l) ∈ es' →
      (Survey.mk t settings).rules.ignores (spot.entryFromRoot name) = false →
      ((Survey.mk t settings).sourcesIn (spot.below name) (.folder sub l)).value =
        ((Survey.mk t' settings).sourcesIn (spot.below name) (.folder sub' l)).value)
    {found : String × List Path} (h : found ∈ ((Survey.mk t settings).sourcesBelow spot es).value) :
    found ∈ ((Survey.mk t' settings).sourcesBelow spot es').value := by
  obtain ⟨sub, l, listed, kept, value⟩ := (Survey.mem_sourcesBelow _ spot).mp h
  obtain ⟨sub', folder'⟩ := d.folder ((entryAt_concat_iff here nodup).mpr listed)
  have listed' : (found.1, Entry.folder sub' l) ∈ es' := (entryAt_concat_iff here' nodup').mp folder'
  refine (Survey.mem_sourcesBelow _ spot).mpr ⟨sub', l, listed', kept, ?_⟩
  rw [value]
  exact same found.1 sub sub' l listed listed' kept

/-- The sub-directories give the same in both trees, if the search gives the same in each of them. -/
theorem sorted_sourcesBelow_eq (d : DiffersAt r t t') (nodup : (es.map Prod.fst).Nodup)
    (nodup' : (es'.map Prod.fst).Nodup) (here : entryAt t.root base = some (.folder es listable))
    (here' : entryAt t'.root base = some (.folder es' listable'))
    (same : ∀ name sub sub' l, (name, Entry.folder sub l) ∈ es → (name, Entry.folder sub' l) ∈ es' →
      (Survey.mk t settings).rules.ignores (spot.entryFromRoot name) = false →
      ((Survey.mk t settings).sourcesIn (spot.below name) (.folder sub l)).value =
        ((Survey.mk t' settings).sourcesIn (spot.below name) (.folder sub' l)).value) :
    (((Survey.mk t settings).sourcesBelow spot es).value.mergeSort fun a b => a.1 ≤ b.1) =
      ((Survey.mk t' settings).sourcesBelow spot es').value.mergeSort fun a b => a.1 ≤ b.1 := by
  refine eq_of_sorted_of_mem_iff (pairwise_mergeSort_key Prod.fst _)
    (pairwise_mergeSort_key Prod.fst _) ?_ ?_ fun found => ?_
  · rw [((List.mergeSort_perm _ _).map Prod.fst).nodup_iff]
    exact Survey.nodup_sourcesBelow _ spot nodup
  · rw [((List.mergeSort_perm _ _).map Prod.fst).nodup_iff]
    exact Survey.nodup_sourcesBelow _ spot nodup'
  · rw [List.mem_mergeSort, List.mem_mergeSort]
    constructor
    · exact d.mem_sourcesBelow nodup nodup' here here' same
    · apply d.symm.mem_sourcesBelow nodup' nodup here' here
      intro name sub' sub l listed' listed kept
      exact (same name sub sub' l listed listed' kept).symm

/-- The search below a directory gives the same in both trees, if what it finds in one of them fits in the
other. -/
theorem value_sourcesIn_eq (d : DiffersAt r t t') (keeps : KeepsSource settings r t t')
    {e e' : Entry} (tidy : e.Tidy) (tidy' : e'.Tidy) (here : entryAt t.root base = some e)
    (here' : entryAt t'.root base = some e')
    (fit : ∀ p ∈ ((Survey.mk t settings).sourcesIn spot e).value,
      t.Fits settings p → t'.Fits settings p)
    (fit' : ∀ p ∈ ((Survey.mk t' settings).sourcesIn spot e').value,
      t'.Fits settings p → t.Fits settings p) :
    ((Survey.mk t settings).sourcesIn spot e).value =
      ((Survey.mk t' settings).sourcesIn spot e').value := by
  induction e using Entry.induction_on generalizing base spot e' with
  | file bytes =>
    rw [Survey.value_sourcesIn_of_not_isFolder rfl,
      Survey.value_sourcesIn_of_not_isFolder (d.isFolder_eq_false here here' rfl)]
  | link target =>
    rw [Survey.value_sourcesIn_of_not_isFolder rfl,
      Survey.value_sourcesIn_of_not_isFolder (d.isFolder_eq_false here here' rfl)]
  | folder es listable ih =>
    obtain ⟨es', folder'⟩ := d.folder here
    rw [here'] at folder'
    cases folder'
    cases tidy with | folder nodup below
    cases tidy' with | folder nodup' below'
    cases barrier : spot.barrier? listable with
    | none =>
      have own := d.accepted_fileNames_eq keeps spot nodup nodup' here here'
        (fun name listed accepted =>
          fit _ (Survey.mem_sourcesIn_of_accepts barrier listed accepted) accepted.2.2)
        (fun name listed accepted =>
          fit' _ (Survey.mem_sourcesIn_of_accepts barrier listed accepted) accepted.2.2)
      have same (name : String) (sub sub' : List (String × Entry)) (l : Bool)
          (listed : (name, Entry.folder sub l) ∈ es) (listed' : (name, Entry.folder sub' l) ∈ es')
          (kept : (Survey.mk t settings).rules.ignores (spot.entryFromRoot name) = false) :
          ((Survey.mk t settings).sourcesIn (spot.below name) (.folder sub l)).value =
            ((Survey.mk t' settings).sourcesIn (spot.below name) (.folder sub' l)).value := by
        -- what is found in the sub-directory is found here, so it fits
        exact ih _ listed (below _ listed) (below' _ listed')
          ((entryAt_concat_iff here nodup).mpr listed) ((entryAt_concat_iff here' nodup').mpr listed')
          (fun p found => fit p (Survey.mem_sourcesIn_of_below barrier listed kept found))
          (fun p found => fit' p
            (Survey.mem_sourcesIn_of_below (s := ⟨t', settings⟩) barrier listed' kept found))
      have entered := d.sorted_sourcesBelow_eq nodup nodup' here here' same
      rw [Survey.value_sourcesIn_folder _ es barrier, Survey.value_sourcesIn_folder _ es' barrier, own,
        entered]
    -- what keeps the directory from being listed does so in both trees
    | some error =>
      rw [Survey.value_sourcesIn_of_barrier _ es barrier, Survey.value_sourcesIn_of_barrier _ es' barrier]

/-- The search below a root gives the same in both trees, if what it finds in one of them fits in the
other. -/
theorem value_filesBelow_eq (d : DiffersAt r t t') (keeps : KeepsSource settings r t t')
    (tidy : t.root.Tidy) (tidy' : t'.root.Tidy) (root : Path)
    (fit : ∀ p ∈ (Build.filesBelow t settings root).value, t.Fits settings p → t'.Fits settings p)
    (fit' : ∀ p ∈ (Build.filesBelow t' settings root).value,
      t'.Fits settings p → t.Fits settings p) :
    (Build.filesBelow t settings root).value = (Build.filesBelow t' settings root).value := by
  have absolute_eq : t.absolute root = t'.absolute root := by
    unfold absolute
    rw [d.cwd]
  by_cases searched : ∃ path, t.absolute root = .ok path ∧ t.isFolder path = true
  · obtain ⟨path, absolute, isFolder⟩ := searched
    obtain ⟨ρ, es, listable, place, folder⟩ := isFolder_iff.mp isFolder
    obtain ⟨es', folder'⟩ := d.folder folder
    have place' : t'.placeOf? path = some ρ :=
      (d.placeOf?_iff (by rw [folder, folder']; rfl) path).mp place
    have found := Build.value_filesBelow_folder settings absolute
      (entry_eq_ok_iff.mpr ⟨ρ, place, folder⟩)
    have found' := Build.value_filesBelow_folder settings (absolute_eq ▸ absolute)
      (entry_eq_ok_iff.mpr ⟨ρ, place', folder'⟩)
    rw [found] at fit ⊢
    rw [found'] at fit' ⊢
    exact d.value_sourcesIn_eq keeps (tidy_of_entryAt tidy folder) (tidy_of_entryAt tidy' folder')
      folder folder' fit fit'
  · have unsearched (path : Path) (absolute : t.absolute root = .ok path) :
        t.isFolder path = false := by
      rw [← Bool.not_eq_true]
      exact fun isFolder => searched ⟨path, absolute, isFolder⟩
    rw [Build.value_filesBelow_of_not_folder unsearched, Build.value_filesBelow_of_not_folder]
    intro path absolute
    rw [← d.isFolder_eq]
    exact unsearched path (absolute_eq ▸ absolute)

/-- A build finds the same files in both trees, if what it finds in one of them fits in the other. -/
theorem value_findFiles_eq (d : DiffersAt r t t') (keeps : KeepsSource settings r t t')
    (tidy : t.root.Tidy) (tidy' : t'.root.Tidy)
    (fit : ∀ p ∈ (Build.findFiles t settings).value, t.Fits settings p → t'.Fits settings p)
    (fit' : ∀ p ∈ (Build.findFiles t' settings).value, t'.Fits settings p → t.Fits settings p) :
    (Build.findFiles t settings).value = (Build.findFiles t' settings).value := by
  have found {s : FileTree} {root : Path} (hroot : root ∈ settings.roots) {p : Path}
      (hp : p ∈ (Build.filesBelow s settings root).value) :
      p ∈ (Build.findFiles s settings).value := by
    rw [Build.value_findFiles, mem_distinct, List.mem_flatMap]
    exact ⟨root, hroot, hp⟩
  rw [Build.value_findFiles, Build.value_findFiles]
  congr 1
  apply List.flatMap_congr
  intro root hroot
  exact d.value_filesBelow_eq keeps tidy tidy' root (fun p hp => fit p (found hroot hp))
    (fun p hp => fit' p (found hroot hp))

end FileTree.DiffersAt

end ContainerKeys
