import ContainerKeys.Command.Run
import ContainerKeys.Proofs.Accounts
import ContainerKeys.Proofs.DiagnosticTables
import ContainerKeys.Proofs.FoundFiles
import Mathlib.Data.List.SplitBy

/-!
# What a check finds

The check command counts the errors among the diagnostics of a build. They come grouped by file, sorted,
and mixed with warnings if those are asked for; counted, they are the usages of keys that no file
registers, among the files that were indexed without a fault. Two things come between the check and this
number. A file that is found in two spellings is indexed twice, and its usages count twice. And where the
current directory is gone, a check that is not quiet breaks off at the first diagnostic, a mere warning
included, for it shows paths from there.

* `DiagnosticTable.perm_all_foldl_add` — grouping by file loses nothing and adds nothing.
* `Command.errorCount_build` — the number of errors of a build.
* `Command.check_counts_unregistered` — the exit code and the number that a check gives, on any console.
* `Command.usage_counted_twice` — a usage that a check counts twice.
* `Terminal.lines_of_short` — lines of at most half as many characters as the screen has cells are shown as
  they are.
-/

namespace ContainerKeys

/-! ## Diagnostics without their groups -/

namespace DiagnosticTable

/-- All diagnostics of a table, file by file. -/
def all (t : DiagnosticTable) : List Diagnostic :=
  t.entries.flatMap Prod.snd

theorem perm_all_add (t : DiagnosticTable) (file : Path) (ds : List Diagnostic) :
    (all (add t file ds)).Perm (all t ++ ds) := by
  have entries : (add t file ds).entries = putEntry file (shown t file ++ ds) t.entries := rfl
  have old : (entryValue? file t.entries).toList.flatten = shown t file := by
    rw [shown, Table.get?]
    cases entryValue? file t.entries <;> simp
  have values := (perm_map_snd_putEntry file (shown t file ++ ds) t.entries).flatten
  rw [List.flatten_append, List.flatten_append, List.flatten_singleton, old, ← entries] at values
  -- the old value of the entry is counted on both sides
  have moved : (all t ++ (shown t file ++ ds)).Perm (all t ++ ds ++ shown t file) := by
    rw [List.append_assoc]
    exact List.perm_append_comm.append_left _
  rw [all, List.flatMap_def]
  rw [all, List.flatMap_def] at moved ⊢
  exact (List.perm_append_right_iff _).mp (values.trans moved)

/-- What is added to a table, file by file, is all in it. -/
theorem perm_all_foldl_add (fileOf : α → Path) (gives : α → List Diagnostic) (l : List α)
    (t : DiagnosticTable) :
    (all (l.foldl (fun t a => add t (fileOf a) (gives a)) t)).Perm (all t ++ l.flatMap gives) := by
  induction l generalizing t with
  | nil => simp
  | cons a rest ih =>
    rw [List.foldl_cons, List.flatMap_cons, ← List.append_assoc]
    exact (ih _).trans ((perm_all_add t (fileOf a) (gives a)).append_right _)

end DiagnosticTable

namespace Command

open DiagnosticTable (all)

/-- The diagnostics of an index are those of its usages and, if they are asked for, those of its displaced
registrations. -/
theorem perm_allDiagnostics (index : Index) (duplicates : Bool) :
    (allDiagnostics (index.diagnostics duplicates)).Perm
      (index.usages.flatMap index.usageDiagnostics ++
        if duplicates then index.duplicates.filterMap index.duplicateDiagnostic? else []) := by
  have sorted : (allDiagnostics (index.diagnostics duplicates)).Perm
      (all (index.diagnostics duplicates)) :=
    (List.mergeSort_perm _ _).flatMap_right _
  have usages := DiagnosticTable.perm_all_foldl_add Usage.file index.usageDiagnostics index.usages .empty
  refine sorted.trans ?_
  unfold Index.diagnostics
  cases duplicates with
  | false =>
    rw [if_neg (by decide), if_neg (by decide), List.append_nil]
    exact usages
  | true =>
    rw [if_pos rfl, if_pos rfl]
    have warnings := DiagnosticTable.perm_all_foldl_add Diagnostic.file (fun d => [d])
      (index.duplicates.filterMap index.duplicateDiagnostic?)
      (index.usages.foldl (fun t u => DiagnosticTable.add t u.file (index.usageDiagnostics u)) .empty)
    rw [List.flatMap_singleton'] at warnings
    exact warnings.trans (usages.append_right _)

/-! ## Errors -/

/-- Each usage of a key that is not registered is one error. -/
theorem errorCount_usageDiagnostics (index : Index) (usages : List Usage) :
    errorCount (usages.flatMap index.usageDiagnostics) =
      (usages.filter fun u => index.keys.get? u.key = none).length := by
  induction usages with
  | nil => rfl
  | cons u rest ih =>
    rw [errorCount] at ih
    rw [errorCount, List.flatMap_cons, List.countP_append, ih]
    cases known : index.keys.get? u.key with
    | none => simp [Index.usageDiagnostics, Table.has, known, Complaint.severity]; omega
    | some d => simp [Index.usageDiagnostics, Table.has, known]

/-- A displaced registration is no error. -/
theorem errorCount_duplicateDiagnostics (index : Index) (ds : List Definition) :
    errorCount (ds.filterMap index.duplicateDiagnostic?) = 0 := by
  rw [errorCount, List.countP_eq_zero]
  intro diagnostic member
  obtain ⟨d, -, made⟩ := List.mem_filterMap.mp member
  unfold Index.duplicateDiagnostic? at made
  split at made
  · cases made
    simp [Complaint.severity]
  · cases made

theorem errorCount_diagnostics (index : Index) (duplicates : Bool) :
    errorCount (allDiagnostics (index.diagnostics duplicates)) =
      (index.usages.filter fun u => index.keys.get? u.key = none).length := by
  have warnings : errorCount
      (if duplicates then index.duplicates.filterMap index.duplicateDiagnostic? else []) = 0 := by
    split
    · exact errorCount_duplicateDiagnostics ..
    · rfl
  have counted := (perm_allDiagnostics index duplicates).countP_eq (·.complaint.severity = .error)
  rw [List.countP_append] at counted
  rw [← errorCount_usageDiagnostics]
  rw [errorCount] at warnings ⊢
  rw [counted, warnings, errorCount, Nat.add_zero]

end Command

/-! ## Usages of keys that no file registers -/

namespace Build

/-- What became of the files of a build that were indexed without a fault. -/
def indexed (w : Workspace) (settings : Settings) : List FileIndex :=
  (results w settings).filter (·.fault.isNone)

/-- Does a file that was indexed without a fault register the key? -/
def Registers (w : Workspace) (settings : Settings) (key : String) : Prop :=
  ∃ file ∈ indexed w settings, ∃ d ∈ file.registrations, d.key = key

instance (w : Workspace) (settings : Settings) (key : String) : Decidable (Registers w settings key) :=
  inferInstanceAs (Decidable (∃ file ∈ indexed w settings, ∃ d ∈ file.registrations, d.key = key))

/-- The usages in these files of keys that none of them registers, in order. -/
def unregistered (w : Workspace) (settings : Settings) : List Usage :=
  ((indexed w settings).flatMap (·.usages)).filter fun u => ¬ Registers w settings u.key

/-- A file that was not indexed gives nothing. -/
theorem flatMap_indexed {f : FileIndex → List α} (w : Workspace) (settings : Settings)
    (nothing : ∀ result : FileIndex, result.registrations = [] → result.usages = [] → f result = []) :
    (indexed w settings).flatMap f = (results w settings).flatMap f := by
  apply flatMap_filter_of_forall_eq_nil
  intro result member faulty
  obtain ⟨file, -, rfl⟩ := List.mem_map.mp member
  have empty := (FileIndex.becomes_ofFile w settings.containerNames file).nothing_of_fault
    (by simpa using faulty)
  exact nothing _ empty.1 empty.2

theorem usages_build_eq_indexed (w : Workspace) (settings : Settings) :
    (build w settings).value.1.usages = (indexed w settings).flatMap (·.usages) := by
  rw [flatMap_indexed w settings fun _ _ usages => usages, value_build_fst_eq_mergeAll,
    Index.usages_mergeAll]
  rfl

theorem get?_keys_build_eq_none_iff (w : Workspace) (settings : Settings) (key : String) :
    (build w settings).value.1.keys.get? key = none ↔ ¬ Registers w settings key := by
  have summary : (build w settings).value.1.Summarises
      ((indexed w settings).flatMap (·.registrations)) := by
    rw [flatMap_indexed w settings fun _ registrations _ => registrations, value_build_fst_eq_mergeAll]
    exact Index.Summarises.empty.mergeAll _
  rw [summary.get?_keys, lastOf?_eq_none_iff]
  simp only [List.mem_flatMap, Registers, not_exists, not_and, forall_exists_index, and_imp]
  constructor
  · intro h file hfile d hd
    exact h d file hfile hd
  · intro h d file hfile hd
    exact h file hfile d hd

theorem unregistered_ne_nil_iff (w : Workspace) (settings : Settings) :
    unregistered w settings ≠ [] ↔
      ∃ file ∈ indexed w settings, ∃ u ∈ file.usages, ¬ Registers w settings u.key := by
  rw [unregistered, ne_eq, List.filter_eq_nil_iff]
  simp only [List.mem_flatMap, decide_eq_true_eq, not_forall, forall_exists_index, and_imp, not_not,
    exists_prop]
  constructor
  · rintro ⟨u, file, hfile, hu, h⟩
    exact ⟨file, hfile, u, hu, h⟩
  · rintro ⟨file, hfile, u, hu, h⟩
    exact ⟨u, file, hfile, hu, h⟩

/-- The usages in one file of keys that no file registers. -/
def unregisteredAt (w : Workspace) (settings : Settings) (p : Path) : List Usage :=
  (FileIndex.ofFile w settings.containerNames p).value.usages.filter fun u => ¬ Registers w settings u.key

/-- They come path by path, in the order in which the paths are found. -/
theorem unregistered_eq_flatMap (w : Workspace) (settings : Settings) :
    unregistered w settings = (findFiles w.files settings).value.flatMap (unregisteredAt w settings) := by
  rw [unregistered, flatMap_indexed w settings fun _ _ usages => usages, results,
    ← value_findFiles_eq_distinct, List.flatMap_map, List.filter_flatMap]
  rfl

end Build

/-! ## One spelling of each path -/

instance (p q : Path) : Decidable (FileTree.Respelled p q) :=
  inferInstanceAs (Decidable (_ ∧ _))

/-- The paths without those that spell an earlier one in another way. -/
def spelledOnce : List Path → List Path
  | [] => []
  | p :: rest => p :: (spelledOnce rest).filter fun q => ¬ FileTree.Respelled p q

theorem spelledOnce_sublist (paths : List Path) : (spelledOnce paths).Sublist paths := by
  induction paths with
  | nil => exact List.Sublist.refl _
  | cons p rest ih => exact (List.filter_sublist.trans ih).cons_cons p

/-- What is taken from a part of a list is as much as is taken from all of it just if the others give
nothing. -/
theorem length_flatMap_eq_iff {f : α → List β} {part all : List α} (sub : part.Sublist all)
    (nodup : all.Nodup) :
    (all.flatMap f).length = (part.flatMap f).length ↔ ∀ a ∈ all, a ∉ part → f a = [] := by
  induction sub with
  | slnil => simp
  | @cons part all a sub ih =>
    rw [List.nodup_cons] at nodup
    have fewer : (part.flatMap f).length ≤ (all.flatMap f).length := (sub.flatMap f).length_le
    have absent : a ∉ part := fun mem => nodup.1 (sub.subset mem)
    rw [List.flatMap_cons, List.length_append, List.forall_mem_cons, ← ih nodup.2]
    constructor
    · intro same
      exact ⟨fun _ => List.length_eq_zero_iff.mp (by omega), by omega⟩
    · rintro ⟨nothing, same⟩
      rw [nothing absent, same, List.length_nil, Nat.zero_add]
  | @cons_cons part all a sub ih =>
    rw [List.nodup_cons] at nodup
    rw [List.flatMap_cons, List.flatMap_cons, List.length_append, List.length_append, Nat.add_left_cancel_iff,
      ih nodup.2, List.forall_mem_cons]
    constructor
    · intro others
      refine ⟨fun absent => absurd List.mem_cons_self absent, ?_⟩
      intro b mem absent
      exact others b mem fun inside => absent (List.mem_cons_of_mem a inside)
    · rintro ⟨-, others⟩ b mem absent
      apply others b mem
      rw [List.mem_cons]
      rintro (rfl | inside)
      · exact nodup.1 mem
      · exact absent inside

namespace Command

open Build (indexed unregistered unregisteredAt Registers)

/-- The errors of a build are its usages of keys that are not registered, whether or not displaced
registrations are reported as well. -/
theorem errorCount_build (w : Workspace) (settings : Settings) (duplicates : Bool) :
    errorCount (allDiagnostics ((build w settings).value.1.diagnostics duplicates)) =
      (unregistered w settings).length := by
  rw [errorCount_diagnostics, Build.usages_build_eq_indexed, unregistered]
  simp only [Build.get?_keys_build_eq_none_iff]

/-! ## The current directory -/

/-- A path can be made absolute just if there is a current directory or it is absolute already. -/
theorem succeeds_absolute {files : FileTree} {p : Path} :
    Succeeds (files.absolute p) ↔ files.cwd ≠ none ∨ Path.isAbsolute p = true := by
  unfold FileTree.absolute
  cases files.cwd with
  | some cwd => simp
  | none => by_cases h : Path.isAbsolute p = true <;> simp [h]

/-- All roots can be made absolute. -/
def Shared.Rooted (shared : Shared) (files : FileTree) : Prop :=
  files.cwd ≠ none ∨ ∀ root ∈ shared.roots, Path.isAbsolute root = true

/-- There are settings just if all roots can be made absolute. -/
theorem succeeds_settings {shared : Shared} {files : FileTree} :
    Succeeds (shared.settings files) ↔ shared.Rooted files := by
  have roots : Succeeds (shared.roots.mapM files.absolute) ↔ shared.Rooted files := by
    unfold Shared.Rooted
    induction shared.roots with
    | nil => simp
    | cons root rest ih =>
      rw [List.mapM_cons, List.forall_mem_cons]
      simp only [bind_pure_comp, succeeds_bind_map_iff, ih, succeeds_absolute]
      tauto
  rw [← roots, Shared.settings, succeeds_bind_iff]
  refine and_iff_left_of_imp ?_
  intro _ roots _
  by_cases any : shared.anyContainer
  · exact ⟨_, by simp only [any]; rfl⟩
  · by_cases none : shared.containers = []
    · exact ⟨_, by simp only [any, none]; rfl⟩
    · exact ⟨_, by simp only [any, none]; rfl⟩

theorem succeeds_shownPath {files : FileTree} (p : Path) (here : files.cwd ≠ none) :
    Succeeds (shownPath files p) := by
  rw [shownPath, bind_pure_comp, succeeds_map_iff, succeeds_absolute]
  exact .inl here

/-- Without a current directory no path is shown. -/
theorem shownPath_eq_error {files : FileTree} (p : Path) (gone : files.cwd = none) :
    shownPath files p = .error .noCwd := by
  rw [shownPath, FileTree.absolute, gone]
  rfl

/-! ## What a check prints -/

/-- The console shows what a check prints of some diagnostics. -/
structure Console.Shows (console : Console) (files : FileTree) (ds : List Diagnostic) : Prop where
  each : ∀ d ∈ ds, ∀ path, shownPath files d.file = .ok path →
    Succeeds (console.text (diagnosticText path d))
  count : Succeeds (console.text (countText (errorCount ds)))

/-- The lines of a check end with the number of errors. -/
theorem exists_checkLines {console : Console} {files : FileTree} {ds : List Diagnostic}
    (shows : console.Shows files ds) (here : files.cwd ≠ none ∨ ds = []) :
    ∃ lines count, console.text (countText (errorCount ds)) = .ok count ∧
      checkLines console files ds = .ok (lines ++ count) := by
  have each : ∀ d ∈ ds, Succeeds (diagnosticLines console files d) := by
    intro d mem
    have present : files.cwd ≠ none := here.resolve_right (List.ne_nil_of_mem mem)
    rw [diagnosticLines, succeeds_bind_iff, succeeds_mapError]
    refine ⟨succeeds_shownPath d.file present, ?_⟩
    intro path mapped
    obtain ⟨path', shown⟩ := succeeds_shownPath d.file present
    rw [shown] at mapped
    cases mapped
    exact succeeds_mapError.mpr (shows.each d mem path shown)
  obtain ⟨lines, gathered⟩ := succeeds_gather_iff.mpr each
  obtain ⟨count, counted⟩ := shows.count
  refine ⟨lines, count, counted, ?_⟩
  rw [checkLines, gathered, counted]
  rfl

/-- Without a current directory a check breaks off at the first diagnostic that it is to print. -/
theorem checkLines_eq_error (console : Console) {files : FileTree} {ds : List Diagnostic}
    (gone : files.cwd = none) (some : ds ≠ []) :
    checkLines console files ds = .error (.ofPath .noCwd) := by
  obtain ⟨d, rest, rfl⟩ := List.exists_cons_of_ne_nil some
  have first : diagnosticLines console files d = .error (.ofPath .noCwd) := by
    rw [diagnosticLines, shownPath_eq_error d.file gone]
    rfl
  rw [checkLines, gather, first]
  rfl

/-- A check with nothing in its way exits with one if it finds errors and with zero otherwise; unless it is
quiet, it has printed their number last. -/
theorem exists_run_check {w : Workspace} {shared : Shared} {settings : Settings} {console : Console}
    (settled : shared.settings w.files = .ok settings) (duplicates : Bool)
    (shows : shared.quiet = false → console.Shows w.files
      (allDiagnostics ((build w settings).value.1.diagnostics duplicates)))
    (free : shared.quiet = true ∨ w.files.cwd ≠ none ∨
      allDiagnostics ((build w settings).value.1.diagnostics duplicates) = []) :
    let errors := errorCount (allDiagnostics ((build w settings).value.1.diagnostics duplicates))
    ∃ outcome, run w ⟨.check duplicates, shared⟩ console = .ok outcome ∧
      outcome.exitCode = (if errors = 0 then 0 else 1) ∧
      if shared.quiet then outcome.output = []
      else ∃ count, console.text (countText errors) = .ok count ∧ count <:+ outcome.output := by
  intro errors
  unfold run
  simp only [settled, Except.mapError, bind, Except.bind]
  cases quiet : shared.quiet with
  | true => exact ⟨_, rfl, rfl, rfl⟩
  | false =>
    have here := free.resolve_left (by simp [quiet])
    obtain ⟨lines, count, shown, printed⟩ := exists_checkLines (shows quiet) here
    rw [if_neg (by decide), printed]
    exact ⟨_, rfl, rfl, count, shown, List.suffix_append ..⟩

/-- A check breaks off if it has a diagnostic to print and there is no current directory. -/
theorem run_check_eq_error {w : Workspace} {shared : Shared} {settings : Settings} (console : Console)
    (settled : shared.settings w.files = .ok settings) {duplicates : Bool}
    (noisy : shared.quiet = false) (gone : w.files.cwd = none)
    (some : allDiagnostics ((build w settings).value.1.diagnostics duplicates) ≠ []) :
    run w ⟨.check duplicates, shared⟩ console = .error (.ofPath .noCwd) := by
  unfold run
  simp only [settled, Except.mapError, bind, Except.bind]
  rw [noisy, if_neg (by decide), checkLines_eq_error console gone some]

/-- Without settings a check breaks off. -/
theorem exitCode_run_of_unrooted {w : Workspace} {shared : Shared} (unrooted : ¬ shared.Rooted w.files)
    (action : Action) (console : Console) : exitCode (run w ⟨action, shared⟩ console) = 1 := by
  cases settled : shared.settings w.files with
  | error fault =>
    rw [run, settled]
    rfl
  | ok settings => exact absurd (succeeds_settings.mp ⟨settings, settled⟩) unrooted

/-! ## The command -/

/-- What a check gives. Where a root is relative and there is no current directory, it breaks off and exits
with one. Otherwise, on a console that shows what it prints, it exits with one just if a file that was
indexed without a fault uses a key that none of these files registers, or if it has a diagnostic to print
and there is no current directory to show its path from; and with zero otherwise. If it does not break off,
the number that it prints last is that of the usages of such keys, by the paths that were found. How much is
printed and whether displaced registrations are reported changes neither the usages nor their number. Each
usage counts once just if no usage is in a file that was found in two spellings. -/
theorem check_counts_unregistered (w : Workspace) (shared : Shared) (console : Console) :
    (¬ shared.Rooted w.files → ∀ duplicates quiet verbose : Bool,
      exitCode (run w ⟨.check duplicates, { shared with quiet, verbose }⟩ console) = 1) ∧
    (shared.Rooted w.files → ∃ settings, shared.settings w.files = .ok settings ∧
      let paths := (Build.findFiles w.files settings).value
      let found := ∃ file ∈ indexed w settings, ∃ u ∈ file.usages, ¬ Registers w settings u.key
      let number := (unregistered w settings).length
      (number = ((spelledOnce paths).flatMap (unregisteredAt w settings)).length ↔
        ∀ p ∈ paths, p ∉ spelledOnce paths → unregisteredAt w settings p = []) ∧
      ∀ duplicates quiet verbose : Bool,
        let ds := allDiagnostics ((build w settings).value.1.diagnostics duplicates)
        let lost := quiet = false ∧ w.files.cwd = none ∧ ds ≠ []
        let ran := run w ⟨.check duplicates, { shared with quiet, verbose }⟩ console
        errorCount ds = number ∧
        ((quiet = false → console.Shows w.files ds) →
          (exitCode ran = 1 ↔ found ∨ lost) ∧ (exitCode ran = 0 ↔ ¬ (found ∨ lost)) ∧
          (¬ lost → ∃ outcome, ran = .ok outcome ∧
            if quiet then outcome.output = []
            else ∃ count, console.text (countText number) = .ok count ∧ count <:+ outcome.output))) := by
  refine ⟨?_, ?_⟩
  · intro unrooted duplicates quiet verbose
    have flagged : ¬ ({ shared with quiet, verbose } : Shared).Rooted w.files := unrooted
    exact exitCode_run_of_unrooted flagged (.check duplicates) console
  intro rooted
  obtain ⟨settings, settled⟩ := succeeds_settings.mpr rooted
  refine ⟨settings, settled, ?_⟩
  intro paths found number
  have some : found ↔ number ≠ 0 :=
    (Build.unregistered_ne_nil_iff w settings).symm.trans (not_congr List.length_eq_zero_iff.symm)
  constructor
  · have nodup : paths.Nodup := by
      show (Build.findFiles w.files settings).value.Nodup
      rw [Build.value_findFiles]
      exact nodup_distinct _
    rw [← length_flatMap_eq_iff (spelledOnce_sublist paths) nodup, ← Build.unregistered_eq_flatMap]
  · intro duplicates quiet verbose ds lost ran
    have counted : errorCount ds = number := errorCount_build w settings duplicates
    refine ⟨counted, ?_⟩
    intro shows
    have flagged : ({ shared with quiet, verbose } : Shared).settings w.files = .ok settings := settled
    by_cases gone : lost
    · have broken : ran = .error (.ofPath .noCwd) :=
        run_check_eq_error console flagged gone.1 gone.2.1 gone.2.2
      have one : exitCode ran = 1 := by
        rw [broken]
        rfl
      refine ⟨iff_of_true one (.inr gone), iff_of_false (by omega) (not_not.mpr (.inr gone)), ?_⟩
      exact fun kept => absurd gone kept
    · have free : quiet = true ∨ w.files.cwd ≠ none ∨ ds = [] := by
        by_contra none
        rw [not_or, not_or, Bool.not_eq_true, not_not] at none
        exact gone none
      obtain ⟨outcome, ok, exits, last⟩ := exists_run_check flagged duplicates shows free
      have code : exitCode ran = if number = 0 then 0 else 1 := by
        rw [← counted]
        exact (congrArg exitCode ok).trans exits
      have either : found ∨ lost ↔ number ≠ 0 := (or_iff_left gone).trans some
      refine ⟨?_, ?_, fun _ => ⟨outcome, ok, counted ▸ last⟩⟩
      · rw [code, either]
        by_cases none : number = 0 <;> simp [none]
      · rw [code, either]
        by_cases none : number = 0 <;> simp [none]

end Command

/-! ## Lines that fit on the screen -/

namespace Text

theorem charWidth_le (c : Char) : charWidth c ≤ 2 := by
  unfold charWidth
  split
  · omega
  · split <;> omega

theorem widthFrom_le (last : Option Char) (cs : List Char) : widthFrom last cs ≤ 2 * cs.length := by
  fun_induction widthFrom last cs with
  | case1 => omega
  | case2 => omega
  | case3 last rest c ih =>
    simp only [List.length_cons]
    omega
  | case4 last rest ih =>
    rw [List.length_cons]
    split <;> omega
  | case5 last c rest _ _ _ ih =>
    rw [List.length_cons]
    omega
  | case6 last c rest _ _ _ ih =>
    have := charWidth_le c
    rw [List.length_cons]
    omega

end Text

namespace Terminal

theorem wordWidth_le (word : List Char) : wordWidth word ≤ 2 * word.length := by
  have kept : (Text.dropEndWhile Text.isBlank word).length ≤ word.length := by
    rw [Text.dropEndWhile, List.length_reverse]
    exact (List.dropWhile_sublist _).length_le.trans_eq List.length_reverse
  have := Text.widthFrom_le none (Text.dropEndWhile Text.isBlank word)
  unfold wordWidth Text.width
  omega

theorem flatten_words (line : List Char) : (words line).flatten = line := by
  have whole := List.flatten_splitBy (fun a b => !Text.isBlank a || Text.isBlank b) line
  unfold words
  split
  · rename_i first second rest split
    rw [split] at whole
    split
    · rw [← whole, List.flatten_cons, List.flatten_cons, List.flatten_cons, List.append_assoc]
    · exact whole
  · exact whole

/-- Words that fit are put on one line. -/
theorem fill_of_fits {fold : Bool} {width column : Nat} {begun : List Char} {words : List (List Char)}
    (fits : column + 2 * words.flatten.length ≤ width) :
    fill fold width column begun words = [begun ++ words.flatten] := by
  induction words generalizing column begun with
  | nil => simp [fill]
  | cons word rest ih =>
    rw [List.flatten_cons, List.length_append] at fits
    have bare := wordWidth_le word
    have full : Text.width word ≤ 2 * word.length := Text.widthFrom_le none word
    rw [fill, if_pos (by omega), ih (by omega), List.flatten_cons, List.append_assoc]

theorem cropEnd_of_fits {width : Nat} {line : List Char} (fits : line.length ≤ width) :
    cropEnd width line = line := by
  simp only [cropEnd, Nat.sub_eq_zero_of_le fits, Nat.min_zero, Nat.sub_zero, List.take_length]

/-- Lines of at most half as many characters as the screen has cells are shown as they are. -/
theorem lines_of_short {s : String} (short : ∀ line ∈ rawLines s, 2 * line.length ≤ screenWidth) :
    lines s = .ok (rawLines s) := by
  unfold lines
  generalize rawLines s = raw at short
  induction raw with
  | nil => rfl
  | cons line rest ih =>
    rw [List.forall_mem_cons] at short
    have one : breakLine true screenWidth line = [line] := by
      rw [breakLine, fill_of_fits (by rw [flatten_words]; omega), flatten_words, List.nil_append,
        List.map_singleton, cropEnd_of_fits (by omega)]
    have fits : Text.width line ≤ 2 * line.length := Text.widthFrom_le none _
    rw [List.flatMap_cons, one, List.singleton_append, List.mapM_cons, crop, if_pos (by omega), ih short.2]
    rfl

end Terminal

namespace Command

open Build (indexed unregistered unregisteredAt Registers)

/-- A text that leaves one short line without its tags is shown as this line. -/
theorem text_terminal_of_short {s : String} (line : List Char)
    (raw : Terminal.rawLines (String.ofList (Console.dropTags 0 s.toList)) = [line])
    (short : 2 * line.length ≤ Terminal.screenWidth) :
    Console.terminal.text s = .ok (textLines line) := by
  have lines := Terminal.lines_of_short (s := String.ofList (Console.dropTags 0 s.toList))
    (by rw [raw, List.forall_mem_singleton]; exact short)
  simp only [Console.terminal, lines, raw]
  exact congrArg Except.ok (List.append_nil _)

/-! ## Checks of one usage -/

/-- The command line `check` in the directory of the one file, with some roots. -/
def checkBelow (roots : List Path) : Shared where
  roots := roots
  ignore := []
  containers := []
  anyContainer := false
  verbose := false
  quiet := false

theorem ofFile_oneUsage {p : Path} (spelled : p = "/w/a.js" ∨ p = "//w/a.js") :
    (FileIndex.ofFile oneUsage ["container"] p).value = { file := p, usages := [usageIn p] } := by
  rcases spelled with rfl | rfl
  · decide +kernel
  · decide +kernel

theorem results_oneUsage {roots paths : List Path}
    (found : (Build.findFiles oneUsage.files (rootedAt roots)).value = paths)
    (spelled : ∀ p ∈ paths, p = "/w/a.js" ∨ p = "//w/a.js") :
    Build.results oneUsage (rootedAt roots) =
      paths.map fun p => { file := p, usages := [usageIn p] } := by
  rw [Build.results, ← Build.value_findFiles_eq_distinct, found]
  exact List.map_congr_left fun p mem => ofFile_oneUsage (spelled p mem)

theorem shownPath_oneUsage {p : Path} (spelled : p = "/w/a.js" ∨ p = "//w/a.js") :
    shownPath oneUsage.files p = .ok "a.js" := by
  have here : oneUsage.files.absolute "." = .ok "/w" := by decide
  have path : Path.relative "/w" "/w" p = "a.js" := by
    rcases spelled with rfl | rfl
    · decide
    · decide
  rw [shownPath, here, ← path]
  rfl

/-- The terminal shows the diagnostic of the usage. -/
theorem succeeds_text_oneUsage (file : Path) :
    Succeeds (Console.terminal.text
      (diagnosticText "a.js" ⟨file, ⟨⟨0, 17⟩, ⟨0, 18⟩⟩, .unregistered "k"⟩)) := by
  refine ⟨_, text_terminal_of_short
    "a.js:1:18: error key \"k\" is not registered in the container (unregistered-key)".toList ?_ ?_⟩
  · have place : shownPosition ⟨0, 17⟩ = "1:18" := by decide
    have text : diagnosticText "a.js" ⟨file, ⟨⟨0, 17⟩, ⟨0, 18⟩⟩, .unregistered "k"⟩ =
        "a.js:1:18: [red]error[/red] key \"k\" is not registered in the container (unregistered-key)" := by
      simp only [diagnosticText, place, Severity.name, severityStyle, Complaint.severity, Complaint.message,
        Complaint.code]
      rfl
    rw [text]
    decide
  · decide

/-- A check of the usage in some spellings of its file prints how many there are. -/
theorem shows_oneUsage {paths : List Path} (spelled : ∀ p ∈ paths, p = "/w/a.js" ∨ p = "//w/a.js")
    (count : Succeeds (Console.terminal.text (countText paths.length))) (duplicates : Bool) :
    Console.terminal.Shows oneUsage.files
      (allDiagnostics ((⟨.empty, paths.map usageIn, []⟩ : Index).diagnostics duplicates)) := by
  constructor
  · intro d mem shown hshown
    have only : ∃ p ∈ paths, d = ⟨p, ⟨⟨0, 17⟩, ⟨0, 18⟩⟩, .unregistered "k"⟩ := by
      have usages : d ∈ (paths.map usageIn).flatMap
          (⟨.empty, paths.map usageIn, []⟩ : Index).usageDiagnostics := by
        rw [(perm_allDiagnostics _ _).mem_iff, List.mem_append] at mem
        refine mem.resolve_right ?_
        cases duplicates <;> exact List.not_mem_nil
      obtain ⟨u, used, given⟩ := List.mem_flatMap.mp usages
      obtain ⟨p, member, rfl⟩ := List.mem_map.mp used
      exact ⟨p, member, List.mem_singleton.mp given⟩
    obtain ⟨p, member, rfl⟩ := only
    rw [shownPath_oneUsage (spelled p member)] at hshown
    cases hshown
    exact succeeds_text_oneUsage p
  · have errors : errorCount (allDiagnostics
        ((⟨.empty, paths.map usageIn, []⟩ : Index).diagnostics duplicates)) = paths.length := by
      rw [errorCount_diagnostics, List.filter_eq_self.mpr, List.length_map]
      exact fun _ _ => rfl
    rw [errors]
    exact count

theorem text_count_oneUsage :
    Console.terminal.text (countText 1) = .ok [.text "1 unregistered key usage(s)"] ∧
      Console.terminal.text (countText 2) = .ok [.text "2 unregistered key usage(s)"] := by
  constructor
  · exact text_terminal_of_short "1 unregistered key usage(s)".toList (by decide) (by decide)
  · exact text_terminal_of_short "2 unregistered key usage(s)".toList (by decide) (by decide)

theorem not_registers_oneUsage {roots paths : List Path}
    (found : (Build.findFiles oneUsage.files (rootedAt roots)).value = paths)
    (spelled : ∀ p ∈ paths, p = "/w/a.js" ∨ p = "//w/a.js") :
    ¬ Registers oneUsage (rootedAt roots) "k" := by
  rintro ⟨file, member, d, registered, -⟩
  rw [indexed, results_oneUsage found spelled] at member
  obtain ⟨p, -, rfl⟩ := List.mem_map.mp (List.mem_filter.mp member).1
  cases registered

/-- The one usage of a key that nothing registers is reported, and the check exits with one. -/
theorem check_counts_unregistered_oneUsage :
    (checkBelow ["."]).Rooted oneUsage.files ∧
      (checkBelow ["."]).settings oneUsage.files = .ok (rootedAt ["/w"]) ∧
      Console.terminal.Shows oneUsage.files
        (allDiagnostics ((build oneUsage (rootedAt ["/w"])).value.1.diagnostics true)) ∧
      ∃ outcome, run oneUsage ⟨.check true, checkBelow ["."]⟩ = .ok outcome ∧ outcome.exitCode = 1 ∧
        [.text "1 unregistered key usage(s)"] <:+ outcome.output := by
  have rooted : (checkBelow ["."]).Rooted oneUsage.files := .inl (by decide)
  have settled : (checkBelow ["."]).settings oneUsage.files = .ok (rootedAt ["/w"]) := by decide
  have spelled : ∀ p ∈ ["/w/a.js"], p = "/w/a.js" ∨ p = "//w/a.js" := by simp
  have results := results_oneUsage value_findFiles_oneSlash spelled
  have missing := not_registers_oneUsage value_findFiles_oneSlash spelled
  have only : indexed oneUsage (rootedAt ["/w"]) =
      [{ file := "/w/a.js", usages := [usageIn "/w/a.js"] }] := by
    rw [indexed, results]
    rfl
  have merged : (build oneUsage (rootedAt ["/w"])).value.1 = ⟨.empty, ["/w/a.js"].map usageIn, []⟩ := by
    rw [value_build_fst_eq_mergeAll, results]
    rfl
  have shows : Console.terminal.Shows oneUsage.files
      (allDiagnostics ((build oneUsage (rootedAt ["/w"])).value.1.diagnostics true)) := by
    rw [merged]
    exact shows_oneUsage spelled ⟨_, text_count_oneUsage.1⟩ true
  obtain ⟨settings, settled', -, gives⟩ :=
    (check_counts_unregistered oneUsage (checkBelow ["."]) .terminal).2 rooted
  rw [settled] at settled'
  cases settled'
  obtain ⟨-, printed⟩ := gives true false false
  obtain ⟨one, -, last⟩ := printed fun _ => shows
  obtain ⟨outcome, ran, count, shown, ends⟩ := last fun lost => nomatch lost.2.1
  have number : unregistered oneUsage (rootedAt ["/w"]) = [usageIn "/w/a.js"] := by
    rw [unregistered, only, List.flatMap_singleton]
    exact List.filter_cons_of_pos (decide_eq_true missing)
  rw [number] at shown
  cases shown.symm.trans text_count_oneUsage.1
  refine ⟨rooted, settled, shows, outcome, ran, ?_, ends⟩
  have exits := one.mpr (.inl (by
    rw [only]
    exact ⟨_, List.mem_singleton_self _, usageIn "/w/a.js", List.mem_singleton_self _, missing⟩))
  exact (congrArg exitCode ran).symm.trans exits

/-- With the roots `/w` and `//w`, the one usage counts twice. -/
theorem usage_counted_twice :
    (∃ outcome, run oneUsage ⟨.check false, checkBelow ["/w", "//w"]⟩ = .ok outcome ∧
      [.text "2 unregistered key usage(s)"] <:+ outcome.output) ∧
    spelledOnce (Build.findFiles oneUsage.files (rootedAt ["/w", "//w"])).value = ["/w/a.js"] ∧
    unregisteredAt oneUsage (rootedAt ["/w", "//w"]) "/w/a.js" = [usageIn "/w/a.js"] := by
  have settled : (checkBelow ["/w", "//w"]).settings oneUsage.files = .ok (rootedAt ["/w", "//w"]) := by decide
  have spelled : ∀ p ∈ ["/w/a.js", "//w/a.js"], p = "/w/a.js" ∨ p = "//w/a.js" := by simp
  have results := results_oneUsage value_findFiles_twoSlashes spelled
  have missing := not_registers_oneUsage value_findFiles_twoSlashes spelled
  have merged : (build oneUsage (rootedAt ["/w", "//w"])).value.1 =
      ⟨.empty, ["/w/a.js", "//w/a.js"].map usageIn, []⟩ := by
    rw [value_build_fst_eq_mergeAll, results]
    rfl
  have shows : Console.terminal.Shows oneUsage.files
      (allDiagnostics ((build oneUsage (rootedAt ["/w", "//w"])).value.1.diagnostics false)) := by
    rw [merged]
    exact shows_oneUsage spelled ⟨_, text_count_oneUsage.2⟩ false
  refine ⟨?_, ?_, ?_⟩
  · obtain ⟨outcome, ran, -, count, shown, ends⟩ :=
      exists_run_check settled false (fun _ => shows) (.inr (.inl (by decide)))
    have two : errorCount (allDiagnostics
        ((build oneUsage (rootedAt ["/w", "//w"])).value.1.diagnostics false)) = 2 := by
      rw [errorCount_diagnostics, merged]
      rfl
    rw [two] at shown
    cases shown.symm.trans text_count_oneUsage.2
    exact ⟨outcome, ran, ends⟩
  · rw [value_findFiles_twoSlashes]
    decide
  · have usages : (FileIndex.ofFile oneUsage ["container"] "/w/a.js").value.usages =
        [usageIn "/w/a.js"] := usages_oneUsage.1
    show List.filter _ (FileIndex.ofFile oneUsage ["container"] "/w/a.js").value.usages = _
    rw [usages]
    exact List.filter_cons_of_pos (decide_eq_true missing)

end Command

end ContainerKeys
