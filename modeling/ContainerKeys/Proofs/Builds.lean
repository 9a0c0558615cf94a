import ContainerKeys.Build
import ContainerKeys.Proofs.Merge

/-!
# What a build gives

The values of the steps of a build, without their log lines.

* `Survey.value_acceptFiles` — the files of a directory that are accepted, in their order.
* `value_build_fst` — the index of a workspace merges the indexes of the files found.
-/

namespace ContainerKeys

namespace Logged

@[simp] theorem value_map (f : α → β) (x : Logged α) : (f <$> x).value = f x.value := rfl

theorem value_mapM (f : α → Logged β) (l : List α) :
    (l.mapM f).value = l.map fun a => (f a).value := by
  induction l with
  | nil => rfl
  | cons a rest ih =>
    rw [List.mapM_cons, value_bind, value_bind, value_pure, ih]
    rfl

end Logged

namespace Survey

/-- The file has a source extension, no glob leaves it out, and its size is known and within the limit. -/
def Accepts (s : Survey) (spot : Spot) (name : String) : Prop :=
  s.settings.isSource name = true ∧ s.rules.ignores (spot.entryFromRoot name) = false ∧
    ∃ size, s.files.size (spot.entryPath name) = .ok size ∧ size ≤ s.settings.maxFileSize

theorem value_acceptFile (s : Survey) (spot : Spot) (name : String) :
    (s.acceptFile spot name).value = true ↔ s.Accepts spot name := by
  unfold acceptFile Accepts
  cases s.settings.isSource name with
  | false => simp
  | true =>
    cases s.rules.ignores (spot.entryFromRoot name) with
    | true => simp
    | false =>
      cases known : s.files.size (spot.entryPath name) with
      | error fault => simp [known]
      | ok size =>
        by_cases large : s.settings.maxFileSize < size
        · simp [known, large]
        · simp [known, large, Int.not_lt.mp large]

instance (s : Survey) (spot : Spot) (name : String) : Decidable (s.Accepts spot name) :=
  decidable_of_iff _ (value_acceptFile s spot name)

/-- The files that are accepted keep their order. -/
theorem value_acceptFiles (s : Survey) (spot : Spot) (names : List String) :
    (s.acceptFiles spot names).value =
      (names.filter fun name => s.Accepts spot name).map spot.entryPath := by
  induction names with
  | nil => rfl
  | cons name rest ih =>
    rw [acceptFiles, Logged.value_bind, Logged.value_bind, ih]
    have accepted := value_acceptFile s spot name
    by_cases h : s.Accepts spot name
    · simp [accepted.mpr h, h]
    · have refused : (s.acceptFile spot name).value = false := by
        rw [← Bool.not_eq_true]
        exact fun given => h (accepted.mp given)
      simp [refused, h]

/-- A directory that can be listed: its own files, then those of the sub-directories. -/
theorem value_sourcesIn_folder (s : Survey) {spot : Spot} (entries : List (String × Entry))
    {listable : Bool} (free : spot.barrier? listable = none) :
    (s.sourcesIn spot (.folder entries listable)).value =
      ((s.fileNames spot entries).filter fun name => s.Accepts spot name).map spot.entryPath ++
        ((s.sourcesBelow spot entries).value.mergeSort fun a b => a.1 ≤ b.1).flatMap Prod.snd := by
  simp only [sourcesIn, free, Logged.value_bind, Logged.value_pure, value_acceptFiles]

/-- A directory that cannot be listed gives nothing, and neither does what is below it. -/
theorem value_sourcesIn_of_barrier (s : Survey) {spot : Spot} (entries : List (String × Entry))
    {listable : Bool} {error : FileError} (barred : spot.barrier? listable = some error) :
    (s.sourcesIn spot (.folder entries listable)).value = [] := by
  simp only [sourcesIn, barred, Logged.value_bind, Logged.value_pure]

end Survey

theorem outcome_enumerate_folder {files : FileTree} {settings : Settings} {root path : Path}
    {entries : List (String × Entry)} {listable : Bool} (absolute : files.absolute root = .ok path)
    (folder : files.entry path = .ok (.folder entries listable)) :
    (enumerate files settings root).outcome =
      .ok (Survey.sourcesIn ⟨files, settings⟩ ⟨path, ""⟩ (.folder entries listable)).value := by
  rw [enumerate, absolute, Attempt.outcome_bind, Attempt.outcome_ofExcept]
  simp only [Except.mapError, bind, Except.bind, folder]
  rfl

/-- A root that leads to no directory cannot be searched. -/
theorem outcome_enumerate_of_not_folder {files : FileTree} {settings : Settings} {root path : Path}
    (absolute : files.absolute root = .ok path)
    (plain : ∀ entries listable, files.entry path ≠ .ok (.folder entries listable)) :
    (enumerate files settings root).outcome = .error (.notFolder path) := by
  rw [enumerate, absolute, Attempt.outcome_bind, Attempt.outcome_ofExcept]
  simp only [Except.mapError, bind, Except.bind]
  rfl

namespace Build

theorem value_findFiles (files : FileTree) (settings : Settings) :
    (findFiles files settings).value =
      distinct (settings.roots.flatMap fun root => (filesBelow files settings root).value) := by
  rw [findFiles, Logged.value_bind, Logged.value_mapM, Logged.value_pure, List.flatMap_def]

/-- The files below a root are those that its search gives; none if the search fails. -/
theorem value_filesBelow (files : FileTree) (settings : Settings) (root : Path) :
    (filesBelow files settings root).value =
      match (enumerate files settings root).outcome with
      | .error _ => []
      | .ok found => found := by
  rw [filesBelow, Logged.value_bind]
  show _ = match (enumerate files settings root).run.value with
    | .error _ => []
    | .ok found => found
  cases (enumerate files settings root).run.value with
  | error fault => rfl
  | ok found =>
    by_cases h : found = []
    · simp [h]
    · simp [h]

end Build

/-- The index of a workspace merges the indexes of the files found, in their order. -/
theorem value_build_fst (w : Workspace) (settings : Settings) :
    (build w settings).value.1 =
      (Index.empty.mergeAll ((Build.findFiles w.files settings).value.map fun file =>
        (FileIndex.ofFile w settings.containerNames file).value)).value := by
  unfold build
  by_cases none : settings.roots = []
  · rw [if_pos none, Build.value_findFiles, none]
    rfl
  · rw [if_neg none, Logged.value_bind, Logged.value_bind, Logged.value_bind, Logged.value_mapM]
    rfl

/-- The index of a workspace has the usages of the files found, one file after another. -/
theorem usages_build (w : Workspace) (settings : Settings) :
    (build w settings).value.1.usages = (Build.findFiles w.files settings).value.flatMap fun file =>
      (FileIndex.ofFile w settings.containerNames file).value.usages := by
  rw [value_build_fst, Index.usages_mergeAll, List.flatMap_map]
  rfl

/-- It knows their registrations, one file after another. -/
theorem summarises_build (w : Workspace) (settings : Settings) :
    (build w settings).value.1.Summarises
      ((Build.findFiles w.files settings).value.flatMap fun file =>
        (FileIndex.ofFile w settings.containerNames file).value.registrations) := by
  rw [value_build_fst, ← List.flatMap_map (fun file =>
    (FileIndex.ofFile w settings.containerNames file).value)]
  exact Index.Summarises.empty.mergeAll _

end ContainerKeys
