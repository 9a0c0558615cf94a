import ContainerKeys.Diagnostic
import Mathlib.Data.List.Basic

/-!
# What a table of diagnostics says of a file

Diagnostics are added to a table one after another. The entry of a file is what was added to it, in order,
and a file has an entry when anything, even nothing at all, was added to it.

* `DiagnosticTable.get?_foldl_add` — the entry of a file after any number of additions.
* `Index.has_diagnostics_iff` — the files that the diagnostics of an index name.
* `Index.shown_diagnostics_ne_nil_iff` — the files that they complain about.
* `Table.get?_putAll` — replacing the entries of one table by those of another.
-/

namespace ContainerKeys

namespace Table

variable {α β : Type} [DecidableEq α]

theorem entryValue?_eq_none_iff {key : α} {entries : List (α × β)} :
    entryValue? key entries = none ↔ key ∉ entries.map Prod.fst := by
  induction entries with
  | nil => simp [entryValue?]
  | cons entry rest ih =>
    obtain ⟨k, v⟩ := entry
    by_cases h : k = key
    · simp [entryValue?, h]
    · have h' : ¬ key = k := fun e => h e.symm
      simp [entryValue?, h, h', ih]

theorem get?_foldl_put (entries : List (α × β)) (nodup : (entries.map Prod.fst).Nodup)
    (t : Table α β) (key : α) :
    (entries.foldl (fun t e => t.put e.1 e.2) t).get? key =
      (entryValue? key entries).or (t.get? key) := by
  induction entries generalizing t with
  | nil => rfl
  | cons entry rest ih =>
    obtain ⟨k, v⟩ := entry
    rw [List.map_cons, List.nodup_cons] at nodup
    rw [List.foldl_cons, ih nodup.2, get?_put, entryValue?]
    by_cases h : k = key
    -- no later entry has the same key
    · have absent : entryValue? key rest = none := entryValue?_eq_none_iff.mpr (h ▸ nodup.1)
      rw [if_pos h, if_pos h.symm, absent]
      rfl
    · rw [if_neg h, if_neg (Ne.symm h)]

/-- The entries of the second table take the place of those of the first. -/
theorem get?_putAll (t other : Table α β) (key : α) :
    (t.putAll other.entries).get? key = (other.get? key).or (t.get? key) :=
  get?_foldl_put other.entries other.nodup t key

end Table

namespace DiagnosticTable

/-- What a table says of a file; nothing if it has no entry. -/
def shown (t : DiagnosticTable) (file : Path) : List Diagnostic :=
  (t.get? file).getD []

theorem get?_add (t : DiagnosticTable) (file other : Path) (ds : List Diagnostic) :
    (add t file ds).get? other =
      if other = file then some (shown t file ++ ds) else t.get? other :=
  Table.get?_put ..

theorem filter_file_eq_nil {fileOf : α → Path} {l : List α} {file : Path}
    (none : ¬ ∃ a ∈ l, fileOf a = file) : l.filter (fileOf · = file) = [] := by
  rw [List.filter_eq_nil_iff]
  intro a ha e
  exact none ⟨a, ha, by simpa using e⟩

/-- The entry of a file is what was added to it, in order. -/
theorem get?_foldl_add (fileOf : α → Path) (gives : α → List Diagnostic) (l : List α)
    (t : DiagnosticTable) (file : Path) :
    (l.foldl (fun t a => add t (fileOf a) (gives a)) t).get? file =
      if ∃ a ∈ l, fileOf a = file then
        some (shown t file ++ (l.filter (fileOf · = file)).flatMap gives)
      else t.get? file := by
  induction l generalizing t with
  | nil => simp
  | cons a rest ih =>
    rw [List.foldl_cons, ih]
    by_cases h : fileOf a = file
    -- the file has an entry from now on, whether or not more is added
    · have here : shown (add t (fileOf a) (gives a)) file = shown t file ++ gives a := by
        rw [shown, get?_add, if_pos h.symm, h]
        rfl
      rw [here, get?_add, if_pos h.symm, h]
      by_cases more : ∃ b ∈ rest, fileOf b = file
      · simp [h, more]
      · rw [if_neg more, if_pos ⟨a, List.mem_cons_self, h⟩]
        simp [h, filter_file_eq_nil more]
    · have same : (add t (fileOf a) (gives a)).get? file = t.get? file := by
        rw [get?_add, if_neg (Ne.symm h)]
      rw [shown, same]
      simp [h, shown]

theorem shown_foldl_add (fileOf : α → Path) (gives : α → List Diagnostic) (l : List α)
    (t : DiagnosticTable) (file : Path) :
    shown (l.foldl (fun t a => add t (fileOf a) (gives a)) t) file =
      shown t file ++ (l.filter (fileOf · = file)).flatMap gives := by
  rw [shown, get?_foldl_add]
  split
  · rfl
  · rename_i none
    rw [filter_file_eq_nil none, List.flatMap_nil, List.append_nil]
    rfl

theorem flatMap_filter_ne_nil_iff (fileOf : α → Path) (gives : α → List Diagnostic) (l : List α)
    (file : Path) :
    (l.filter (fileOf · = file)).flatMap gives ≠ [] ↔ ∃ a ∈ l, fileOf a = file ∧ gives a ≠ [] := by
  rw [ne_eq, List.flatMap_eq_nil_iff]
  simp only [List.mem_filter, decide_eq_true_eq, and_imp, not_forall, exists_prop]

theorem has_foldl_add (fileOf : α → Path) (gives : α → List Diagnostic) (l : List α)
    (t : DiagnosticTable) (file : Path) :
    (l.foldl (fun t a => add t (fileOf a) (gives a)) t).has file = true ↔
      t.has file = true ∨ ∃ a ∈ l, fileOf a = file := by
  unfold Table.has
  rw [get?_foldl_add]
  split
  · rename_i some
    simp [some]
  · rename_i none
    simp [none]

end DiagnosticTable

namespace Index

open DiagnosticTable (shown)

variable (index : Index) (duplicates : Bool) (file : Path)

/-- The file has a displaced registration that is reported. -/
def ReportsDuplicateIn : Prop :=
  ∃ d ∈ index.duplicates, d.registeredIn = file ∧ (index.duplicateDiagnostic? d).isSome

/-- The file has a usage, or a displaced registration that is reported. -/
def Mentions : Prop :=
  (∃ u ∈ index.usages, u.file = file) ∨ duplicates = true ∧ index.ReportsDuplicateIn file

/-- The file has a usage of a key that is not registered, or a displaced registration that is
reported. -/
def Complains : Prop :=
  (∃ u ∈ index.usages, u.file = file ∧ index.keys.has u.key = false) ∨
    duplicates = true ∧ index.ReportsDuplicateIn file

variable {index duplicates file}

theorem file_duplicateDiagnostic? {d : Definition} {diagnostic : Diagnostic}
    (h : index.duplicateDiagnostic? d = some diagnostic) : diagnostic.file = d.registeredIn := by
  unfold duplicateDiagnostic? at h
  split at h
  · cases h
    rfl
  · cases h

theorem reportsDuplicateIn_iff :
    index.ReportsDuplicateIn file ↔
      ∃ diagnostic ∈ index.duplicates.filterMap index.duplicateDiagnostic?, diagnostic.file = file := by
  constructor
  · rintro ⟨d, hd, rfl, reported⟩
    obtain ⟨diagnostic, made⟩ := Option.isSome_iff_exists.mp reported
    exact ⟨diagnostic, List.mem_filterMap.mpr ⟨d, hd, made⟩, file_duplicateDiagnostic? made⟩
  · rintro ⟨diagnostic, member, rfl⟩
    obtain ⟨d, hd, made⟩ := List.mem_filterMap.mp member
    exact ⟨d, hd, (file_duplicateDiagnostic? made).symm, by rw [made]; rfl⟩

/-- The diagnostics of an index name the files that it mentions. -/
theorem has_diagnostics_iff :
    (index.diagnostics duplicates).has file = true ↔ index.Mentions duplicates file := by
  unfold Mentions diagnostics
  cases duplicates with
  | false =>
    rw [if_neg (by decide), DiagnosticTable.has_foldl_add]
    simp [Table.has]
  | true =>
    rw [if_pos rfl, DiagnosticTable.has_foldl_add, DiagnosticTable.has_foldl_add,
      ← reportsDuplicateIn_iff]
    simp [Table.has]

theorem usageDiagnostics_ne_nil_iff {u : Usage} :
    index.usageDiagnostics u ≠ [] ↔ index.keys.has u.key = false := by
  unfold usageDiagnostics
  by_cases h : index.keys.has u.key = true <;> simp [h]

/-- The diagnostics of an index say something of the files that it complains about. -/
theorem shown_diagnostics_ne_nil_iff :
    shown (index.diagnostics duplicates) file ≠ [] ↔ index.Complains duplicates file := by
  have usages := DiagnosticTable.flatMap_filter_ne_nil_iff Usage.file index.usageDiagnostics
    index.usages file
  simp only [usageDiagnostics_ne_nil_iff] at usages
  unfold Complains diagnostics
  cases duplicates with
  | false =>
    rw [if_neg (by decide), DiagnosticTable.shown_foldl_add, ← usages]
    simp [shown]
  | true =>
    have reported := DiagnosticTable.flatMap_filter_ne_nil_iff Diagnostic.file (fun d => [d])
      (index.duplicates.filterMap index.duplicateDiagnostic?) file
    simp only [ne_eq, List.cons_ne_nil, not_false_eq_true, and_true, ← reportsDuplicateIn_iff]
      at reported
    rw [if_pos rfl, DiagnosticTable.shown_foldl_add, DiagnosticTable.shown_foldl_add, ← usages,
      ← reported]
    simp only [shown, Table.get?_empty, Option.getD_none, List.nil_append, ne_eq,
      List.append_eq_nil_iff, true_and, not_and_or]

end Index

end ContainerKeys
