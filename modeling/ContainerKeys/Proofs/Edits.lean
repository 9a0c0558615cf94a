import ContainerKeys.FileTree.Edit
import ContainerKeys.Proofs.FileTrees

/-!
# Edits of one file

Writing or removing a regular file changes a tree at one place. The directories on the way to it are built
anew, but nothing else that stands in them changes.

* `Entry.alter_cons` — one level of an edit.
* `FileTree.differsAt_setAt`, `FileTree.differsAt_removeAt` — the tree before and after an edit.
-/

namespace ContainerKeys

open FileTree (Route entryAt)

namespace Entry

/-! ## One level -/

theorem child?_setChild (name : String) (new : Entry) (entries : List (String × Entry))
    (listable : Bool) (other : String) :
    (Entry.folder (setChild name new entries) listable).child? other =
      if other = name then some new else (Entry.folder entries listable).child? other := by
  show ((setChild name new entries).find? fun c => c.1 = other).map Prod.snd =
    if other = name then some new else (entries.find? fun c => c.1 = other).map Prod.snd
  induction entries with
  | nil =>
    by_cases h : other = name
    · simp [setChild, h]
    · simp [setChild, h, Ne.symm h]
  | cons c rest ih =>
    obtain ⟨n, e⟩ := c
    rw [setChild]
    by_cases here : n = name
    · by_cases h : other = name
      · simp [here, h]
      · simp [here, h, Ne.symm h]
    · by_cases h : n = other
      · have ne : other ≠ name := fun e => here (h.trans e)
        simp [h, ne]
      · simp [here, h, ih]

theorem child?_filter (name : String) (entries : List (String × Entry)) (listable : Bool)
    (other : String) :
    (Entry.folder (entries.filter fun c => c.1 ≠ name) listable).child? other =
      if other = name then none else (Entry.folder entries listable).child? other := by
  show ((entries.filter fun c => c.1 ≠ name).find? fun c => c.1 = other).map Prod.snd =
    if other = name then none else (entries.find? fun c => c.1 = other).map Prod.snd
  induction entries with
  | nil => simp
  | cons c rest ih =>
    by_cases here : c.1 = name
    · rw [List.filter_cons_of_neg (by simp [here]), ih]
      by_cases h : other = name
      · simp [h]
      · simp [here, h, Ne.symm h]
    · rw [List.filter_cons_of_pos (by simp [here])]
      by_cases h : c.1 = other
      · have ne : other ≠ name := fun e => here (h.trans e)
        simp [h, ne]
      · simp only [h, decide_false, List.find?_cons_of_neg, Bool.false_eq_true, not_false_eq_true, ih]

/-- An edit builds the directory anew, with another entry under the first name of the place. -/
theorem alter_cons (change : Option Entry → Option Entry) (name : String) (rest : Route)
    (entries : List (String × Entry)) (listable : Bool) :
    ∃ entries', alter change (name :: rest) (some (.folder entries listable)) =
        some (.folder entries' listable) ∧
      ∀ other, (Entry.folder entries' listable).child? other =
        if other = name then alter change rest ((Entry.folder entries listable).child? name)
        else (Entry.folder entries listable).child? other := by
  rw [alter]
  cases alter change rest ((Entry.folder entries listable).child? name) with
  | some new => exact ⟨_, rfl, child?_setChild name new entries listable⟩
  | none => exact ⟨_, rfl, child?_filter name entries listable⟩

end Entry

/-! ## Along a route -/

namespace FileTree

variable {root : Entry} {folder : Route} {entries : List (String × Entry)} {listable : Bool}
  {name : String}

theorem entryAt_cons_folder (name : String) (rest : Route) (entries : List (String × Entry))
    (listable : Bool) :
    entryAt (.folder entries listable) (name :: rest) =
      ((Entry.folder entries listable).child? name).bind (entryAt · rest) := by
  rw [entryAt]
  cases (Entry.folder entries listable).child? name <;> rfl

/-- What has something below it is a directory. -/
theorem folder_of_child? {e c : Entry} (h : e.child? name = some c) :
    ∃ entries listable, e = .folder entries listable := by
  cases e with
  | file => cases h
  | link => cases h
  | folder entries listable => exact ⟨entries, listable, rfl⟩

/-- An edit in a directory changes the entry of that name, and no other but what is below it. -/
theorem entryAt_alter (change : Option Entry → Option Entry) (name : String)
    (h : entryAt root folder = some (.folder entries listable)) :
    ∃ root', Entry.alter change (folder ++ [name]) (some root) = some root' ∧
      entryAt root' (folder ++ [name]) = change (entryAt root (folder ++ [name])) ∧
      ∀ ρ, ¬ folder ++ [name] <+: ρ →
        (entryAt root' ρ).map Entry.face = (entryAt root ρ).map Entry.face := by
  induction folder generalizing root with
  | nil =>
    cases h
    obtain ⟨entries', altered, children⟩ := Entry.alter_cons change name [] entries listable
    refine ⟨_, altered, ?_, ?_⟩
    · rw [List.nil_append, entryAt_cons_folder, entryAt_cons_folder, children, if_pos rfl]
      show (change ((Entry.folder entries listable).child? name)).bind some =
        change (((Entry.folder entries listable).child? name).bind some)
      rw [Option.bind_fun_some, Option.bind_fun_some]
    · intro ρ apart
      cases ρ with
      | nil => rfl
      | cons m ρ =>
        have other : m ≠ name := fun e => apart (by simp [e])
        rw [entryAt_cons_folder, entryAt_cons_folder, children, if_neg other]
  | cons first rest ih =>
    rw [entryAt] at h
    cases found : root.child? first with
    | none => rw [found] at h; cases h
    | some c =>
      rw [found] at h
      obtain ⟨es, listed, rfl⟩ := folder_of_child? found
      obtain ⟨c', altered, there, elsewhere⟩ := ih h
      obtain ⟨es', altered', children⟩ := Entry.alter_cons change first (rest ++ [name]) es listed
      rw [found, altered] at children
      refine ⟨_, altered', ?_, ?_⟩
      · rw [List.cons_append, entryAt_cons_folder, entryAt_cons_folder, children, if_pos rfl, found]
        exact there
      · intro ρ apart
        cases ρ with
        | nil => rfl
        | cons m ρ =>
          rw [entryAt_cons_folder, entryAt_cons_folder, children]
          by_cases here : m = first
          · subst here
            rw [if_pos rfl, found]
            exact elsewhere ρ fun below => apart (List.cons_prefix_cons.mpr ⟨rfl, below⟩)
          · rw [if_neg here]

/-- Nothing stands below a file. -/
theorem entryAt_append_eq_none {ρ rest : Route}
    (file : ∀ e, entryAt root ρ = some e → ∃ bytes, e = .file bytes) (below : rest ≠ []) :
    entryAt root (ρ ++ rest) = none := by
  rw [entryAt_append]
  cases found : entryAt root ρ with
  | none => rfl
  | some e =>
    obtain ⟨bytes, rfl⟩ := file e found
    obtain ⟨first, rest, rfl⟩ := List.exists_cons_of_ne_nil below
    rfl

/-- A tree where something else, or nothing, stands in the place of a file differs at that place. -/
theorem differsAt_of_alter {t : FileTree} {change : Option Entry → Option Entry}
    (h : entryAt t.root folder = some (.folder entries listable))
    (before : ∀ e, entryAt t.root (folder ++ [name]) = some e → ∃ bytes, e = .file bytes)
    (after : ∀ old e, change old = some e → ∃ bytes, e = .file bytes) {root' : Entry}
    (altered : Entry.alter change (folder ++ [name]) (some t.root) = some root') :
    DiffersAt (folder ++ [name]) t { t with root := root' } := by
  obtain ⟨root'', altered', there, elsewhere⟩ := entryAt_alter change name h
  rw [altered] at altered'
  cases altered'
  have after' : ∀ e, entryAt root' (folder ++ [name]) = some e → ∃ bytes, e = .file bytes := by
    rw [there]
    exact after _
  refine ⟨rfl, rfl, ?_, before, after'⟩
  intro ρ apart
  by_cases below : folder ++ [name] <+: ρ
  -- nothing stands below a file
  · obtain ⟨rest, rfl⟩ := below
    have proper : rest ≠ [] := fun e => apart (by rw [e, List.append_nil])
    rw [entryAt_append_eq_none before proper, entryAt_append_eq_none after' proper]
  · exact (elsewhere ρ below).symm

section

variable {t : FileTree} (h : entryAt t.root folder = some (.folder entries listable))
  (before : ∀ e, entryAt t.root (folder ++ [name]) = some e → ∃ bytes, e = .file bytes)

include h before

/-- Writing a file, new or old, changes nothing else. -/
theorem differsAt_setAt (bytes : Bytes) :
    DiffersAt (folder ++ [name]) t (t.setAt (folder ++ [name]) (.file bytes)) := by
  obtain ⟨root', altered, -⟩ := entryAt_alter (fun _ => some (.file bytes)) name h
  rw [setAt, altered]
  refine differsAt_of_alter h before ?_ altered
  rintro old e ⟨⟩
  exact ⟨bytes, rfl⟩

/-- Removing a file changes nothing else. -/
theorem differsAt_removeAt : DiffersAt (folder ++ [name]) t (t.removeAt (folder ++ [name])) := by
  obtain ⟨root', altered, -⟩ := entryAt_alter (fun _ => none) name h
  rw [removeAt, altered]
  refine differsAt_of_alter h before ?_ altered
  intro old e made
  cases made

end

end FileTree

end ContainerKeys
