import ContainerKeys.Proofs.DiagnosticTables
import ContainerKeys.Proofs.Merge
import Mathlib.Data.List.Forall2

/-!
# The diagnostics of merged files

What the diagnostics of an index say, file by file: first the usages of keys that are not registered, then
the registrations that a later one displaced. A displaced registration always has a winner, since the key
it was displaced from never loses its entry again.

* `Index.Summarises.lookup_of_mem_duplicates` — the key of a displaced registration is registered.
* `Index.get?_diagnostics` — the entry of a file in the diagnostics of any index.
* `Index.diagnostics_of_merged_files` — the diagnostics of merged files, entry by entry.
-/

namespace ContainerKeys.Index

/-- The errors of a file: one for each usage of a key that is not registered, in order. -/
def unregisteredIn (index : Index) (file : Path) : List Diagnostic :=
  (index.usages.filter fun u => u.file = file ∧ index.keys.get? u.key = none).map fun u =>
    ⟨u.file, u.range, .unregistered u.key⟩

/-- The displaced registrations of a file whose places are known, in order. -/
def placedDuplicatesIn (index : Index) (file : Path) : List Definition :=
  index.duplicates.filter fun d => d.registeredIn = file ∧ d.registrationRange.isSome

/-- The diagnostic warns of the displaced registration `d`: at its place, with the file whose registration
of the key counts. -/
def WarnsOf (index : Index) (d : Definition) (warning : Diagnostic) : Prop :=
  ∃ range winner, d.registrationRange = some range ∧ index.lookup d.key = some winner ∧
    warning = ⟨d.registeredIn, range, .duplicate d.key winner.registeredIn⟩

/-! ## Winners -/

/-- The key of a displaced registration is registered, by the last registration of it. -/
theorem Summarises.lookup_of_mem_duplicates {index : Index} {ds : List Definition}
    (h : index.Summarises ds) {d : Definition} (hd : d ∈ index.duplicates) :
    ∃ winner, index.lookup d.key = some winner ∧ lastOf? d.key ds = some winner := by
  have member : d ∈ ds := h.perm.subset (List.mem_append_right _ hd)
  have known : lastOf? d.key ds ≠ none := fun none => lastOf?_eq_none_iff.mp none d member rfl
  obtain ⟨winner, last⟩ := Option.ne_none_iff_exists'.mp known
  refine ⟨winner, ?_, last⟩
  rw [lookup, h.get?_keys, last]

/-! ## Entries -/

/-- What the usages of a file give are its errors. -/
theorem flatMap_usageDiagnostics (index : Index) (file : Path) (usages : List Usage) :
    (usages.filter (·.file = file)).flatMap index.usageDiagnostics =
      (usages.filter fun u => u.file = file ∧ index.keys.get? u.key = none).map fun u =>
        ⟨u.file, u.range, .unregistered u.key⟩ := by
  induction usages with
  | nil => rfl
  | cons u rest ih =>
    by_cases here : u.file = file
    · cases known : index.keys.get? u.key with
      | none => simp [here, known, usageDiagnostics, Table.has, ih]
      | some d => simp [here, known, usageDiagnostics, Table.has, ih]
    · simp [here, ih]

/-- The warnings that the displaced registrations `ds` give in a file. -/
def warningsIn (index : Index) (file : Path) (ds : List Definition) : List Diagnostic :=
  (ds.filterMap index.duplicateDiagnostic?).filter (·.file = file)

/-- There is one warning for each displaced registration of the file whose place is known, as long as
every key has a winner. -/
theorem forall₂_warningsIn {index : Index} {ds : List Definition}
    (won : ∀ d ∈ ds, ∃ winner, index.lookup d.key = some winner) (file : Path) :
    List.Forall₂ index.WarnsOf
      (ds.filter fun d => d.registeredIn = file ∧ d.registrationRange.isSome)
      (index.warningsIn file ds) := by
  induction ds with
  | nil => exact List.Forall₂.nil
  | cons d rest ih =>
    obtain ⟨winner, hwinner⟩ := won d List.mem_cons_self
    have later := ih fun e he => won e (List.mem_cons_of_mem d he)
    unfold warningsIn at later ⊢
    cases range : d.registrationRange with
    -- without a place there is no warning
    | none => simpa [duplicateDiagnostic?, hwinner, range] using later
    | some place =>
      have made : index.duplicateDiagnostic? d =
          some ⟨d.registeredIn, place, .duplicate d.key winner.registeredIn⟩ := by
        simp [duplicateDiagnostic?, hwinner, range]
      by_cases here : d.registeredIn = file
      · rw [List.filterMap_cons_some made, List.filter_cons_of_pos (by simp [here, range]),
          List.filter_cons_of_pos (by simp [here])]
        exact List.Forall₂.cons ⟨place, winner, range, hwinner, rfl⟩ later
      · rw [List.filterMap_cons_some made, List.filter_cons_of_neg (by simp [here]),
          List.filter_cons_of_neg (by simp [here])]
        exact later

theorem exists_file_eq_iff_warningsIn (index : Index) (file : Path) (ds : List Definition) :
    (∃ warning ∈ ds.filterMap index.duplicateDiagnostic?, warning.file = file) ↔
      index.warningsIn file ds ≠ [] := by
  rw [warningsIn, ne_eq, List.filter_eq_nil_iff]
  simp only [decide_eq_true_eq, not_forall, not_not, exists_prop]

/-- The entry of a file: its errors, then the warnings if they are asked for. A file has an entry if it
has a usage or a warning. -/
theorem get?_diagnostics (index : Index) (report : Bool) (file : Path) :
    let warnings := if report then index.warningsIn file index.duplicates else []
    (index.diagnostics report).get? file =
      if (∃ u ∈ index.usages, u.file = file) ∨ warnings ≠ [] then
        some (index.unregisteredIn file ++ warnings)
      else none := by
  intro warnings
  have errors := flatMap_usageDiagnostics index file index.usages
  cases report with
  | false =>
    show Table.get? (index.usages.foldl _ _) file = _
    rw [DiagnosticTable.get?_foldl_add, errors]
    simp [warnings, DiagnosticTable.shown, unregisteredIn]
  | true =>
    have said : warnings = index.warningsIn file index.duplicates := rfl
    have named := exists_file_eq_iff_warningsIn index file index.duplicates
    show Table.get? (List.foldl _ (index.usages.foldl _ _) _) file = _
    rw [DiagnosticTable.get?_foldl_add, DiagnosticTable.get?_foldl_add,
      DiagnosticTable.shown_foldl_add, errors]
    by_cases warned : warnings = []
    -- without a warning the entry stays what the usages made of it
    · rw [if_neg fun h => named.mp h warned]
      simp [warned, DiagnosticTable.shown, unregisteredIn]
    · rw [if_pos (named.mpr warned), if_pos (Or.inr warned), said, List.flatMap_singleton']
      rfl

/-! ## Merged files -/

/-- The diagnostics of merged files. Every displaced registration has a winner, the last registration of
its key. The entry of a file holds one error for each usage of an unregistered key in it, and after them,
if they are asked for, one warning for each displaced registration in it whose place is known; a file has
an entry if and only if it has a usage or such a warning. -/
theorem diagnostics_of_merged_files (files : List FileIndex) (report : Bool) :
    let index := (Index.empty.mergeAll files).value
    (∀ d ∈ index.duplicates, ∃ winner, index.lookup d.key = some winner ∧
      lastOf? d.key (files.flatMap (·.registrations)) = some winner) ∧
    ∀ file, ∃ warnings,
      List.Forall₂ index.WarnsOf (if report then index.placedDuplicatesIn file else []) warnings ∧
      (index.diagnostics report).get? file =
        if (∃ u ∈ index.usages, u.file = file) ∨ warnings ≠ [] then
          some (index.unregisteredIn file ++ warnings)
        else none := by
  intro index
  have summary : index.Summarises (files.flatMap (·.registrations)) :=
    Summarises.empty.mergeAll files
  have won : ∀ d ∈ index.duplicates, ∃ winner, index.lookup d.key = some winner ∧
      lastOf? d.key (files.flatMap (·.registrations)) = some winner :=
    fun d hd => summary.lookup_of_mem_duplicates hd
  refine ⟨won, fun file => ⟨_, ?_, get?_diagnostics index report file⟩⟩
  cases report with
  | false => exact List.Forall₂.nil
  | true =>
    apply forall₂_warningsIn
    intro d hd
    obtain ⟨winner, hwinner, -⟩ := won d hd
    exact ⟨winner, hwinner⟩

end ContainerKeys.Index
