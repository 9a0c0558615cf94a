import ContainerKeys.Index
import Mathlib.Data.List.Basic

/-!
# Merging: the last registration of a key counts

File indexes are merged registration by registration. `Index.Summarises` says what the index knows of
the registrations taken in so far, without a word about how they were taken in:

* a key leads to its last registration (`lastOf?`);
* the duplicates are the registrations that a later one displaced, by the order of the later ones
  (`displaced`);
* those that count and the duplicates are all registrations, each once.

One registration keeps it (`Index.Summarises.register`), so a merge of any files keeps it.
-/

namespace ContainerKeys

/-! ## Last registrations and displaced ones -/

/-- The last registration of a key in a list. -/
def lastOf? (key : String) (ds : List Definition) : Option Definition :=
  ds.reverse.find? (·.key = key)

/-- The nearest registration before the `i`-th one that has the same key. -/
def nearestEarlier? (ds : List Definition) (i : Nat) : Option Definition :=
  ds[i]?.bind fun d => lastOf? d.key (ds.take i)

/-- The registrations that a later one displaces, by the order of the later ones. -/
def displaced (ds : List Definition) : List Definition :=
  (List.range ds.length).filterMap (nearestEarlier? ds)

theorem lastOf?_append_singleton (key : String) (ds : List Definition) (d : Definition) :
    lastOf? key (ds ++ [d]) = if d.key = key then some d else lastOf? key ds := by
  unfold lastOf?
  rw [List.reverse_append, List.reverse_singleton, List.singleton_append, List.find?_cons]
  by_cases h : d.key = key <;> simp [h]

theorem lastOf?_eq_none_iff {key : String} {ds : List Definition} :
    lastOf? key ds = none ↔ ∀ d ∈ ds, d.key ≠ key := by
  simp [lastOf?]

theorem lastOf?_append (key : String) (ds es : List Definition) :
    lastOf? key (ds ++ es) = (lastOf? key es).or (lastOf? key ds) := by
  unfold lastOf?
  rw [List.reverse_append, List.find?_append]

/-- No registration of a key stands behind the last one. -/
theorem lastOf?_eq_some_split {key : String} {ds : List Definition} {d : Definition}
    (h : lastOf? key ds = some d) :
    d.key = key ∧ ∃ earlier later, ds = earlier ++ d :: later ∧ ∀ e ∈ later, e.key ≠ key := by
  obtain ⟨hkey, later, earlier, split, none⟩ := List.find?_eq_some_iff_append.mp h
  refine ⟨by simpa using hkey, earlier.reverse, later.reverse, ?_, ?_⟩
  · rw [← List.reverse_reverse ds, split]
    simp
  · intro e he
    simpa using none e (List.mem_reverse.mp he)

theorem nearestEarlier?_append_of_lt (ds more : List Definition) {i : Nat} (h : i < ds.length) :
    nearestEarlier? (ds ++ more) i = nearestEarlier? ds i := by
  unfold nearestEarlier?
  rw [List.getElem?_append_left h, List.take_append_of_le_length (Nat.le_of_lt h)]

theorem nearestEarlier?_append_length (ds : List Definition) (d : Definition) :
    nearestEarlier? (ds ++ [d]) ds.length = lastOf? d.key ds := by
  unfold nearestEarlier?
  rw [List.getElem?_append_right (Nat.le_refl _), List.take_append_of_le_length (Nat.le_refl _)]
  simp

/-- One more registration displaces the last one of its key, if there is one. -/
theorem displaced_append_singleton (ds : List Definition) (d : Definition) :
    displaced (ds ++ [d]) = displaced ds ++ (lastOf? d.key ds).toList := by
  unfold displaced
  rw [List.length_append, List.length_singleton, List.range_succ, List.filterMap_append]
  congr 1
  · apply List.filterMap_congr
    intro i hi
    exact nearestEarlier?_append_of_lt ds [d] (List.mem_range.mp hi)
  · rw [List.filterMap_cons, nearestEarlier?_append_length]
    cases lastOf? d.key ds <;> rfl

/-! ## Values of a table -/

theorem perm_map_snd_putEntry [DecidableEq α] (key : α) (value : β) (entries : List (α × β)) :
    ((putEntry key value entries).map Prod.snd ++ (entryValue? key entries).toList).Perm
      (entries.map Prod.snd ++ [value]) := by
  induction entries with
  | nil => simp [putEntry, entryValue?]
  | cons entry rest ih =>
    obtain ⟨k, v⟩ := entry
    by_cases h : k = key
    -- the old value leaves its place to the new one and stands at the end instead
    · simp only [putEntry, entryValue?, if_pos h, List.map_cons, Option.toList_some, List.cons_append]
      calc (value :: (rest.map Prod.snd ++ [v])).Perm (value :: v :: rest.map Prod.snd) :=
            (List.perm_append_singleton v _).cons value
        _ |>.Perm (v :: value :: rest.map Prod.snd) := List.Perm.swap v value _
        _ |>.Perm (v :: (rest.map Prod.snd ++ [value])) :=
            (List.perm_append_singleton value _).symm.cons v
    · simp only [putEntry, entryValue?, if_neg h, List.map_cons, List.cons_append]
      exact ih.cons v

namespace Index

/-- The definitions that count, in the order in which their keys were first registered. -/
def winners (index : Index) : List Definition :=
  index.keys.entries.map Prod.snd

/-- The index is what is to be known of the registrations `ds`, taken in one after another. -/
structure Summarises (index : Index) (ds : List Definition) : Prop where
  get?_keys : ∀ key, index.keys.get? key = lastOf? key ds
  duplicates_eq : index.duplicates = displaced ds
  perm : (index.winners ++ index.duplicates).Perm ds

namespace Summarises

theorem empty : Summarises .empty [] where
  get?_keys _ := rfl
  duplicates_eq := rfl
  perm := List.Perm.refl []

end Summarises

/-- What a registration does to an index, in one equation for both cases. -/
theorem value_register (index : Index) (d : Definition) :
    (index.register d).value =
      { index with
        keys := index.keys.put d.key d
        duplicates := index.duplicates ++ (index.keys.get? d.key).toList } := by
  unfold register
  cases index.keys.get? d.key with
  | none => simp
  | some previous => rfl

/-- One registration is summarised with those before it. -/
theorem Summarises.register {index : Index} {ds : List Definition} (h : index.Summarises ds)
    (d : Definition) : (index.register d).value.Summarises (ds ++ [d]) := by
  rw [value_register]
  constructor
  · intro key
    show (index.keys.put d.key d).get? key = _
    rw [Table.get?_put, lastOf?_append_singleton, h.get?_keys]
    by_cases hk : key = d.key
    · rw [if_pos hk, if_pos hk.symm]
    · rw [if_neg hk, if_neg (Ne.symm hk)]
  · show index.duplicates ++ _ = _
    rw [displaced_append_singleton, h.get?_keys, h.duplicates_eq]
  -- what is displaced goes from the winners to the duplicates
  · have put : ((index.keys.put d.key d).entries.map Prod.snd ++
        (index.keys.get? d.key).toList).Perm (index.winners ++ [d]) :=
      perm_map_snd_putEntry d.key d index.keys.entries
    show ((index.keys.put d.key d).entries.map Prod.snd ++
      (index.duplicates ++ (index.keys.get? d.key).toList)).Perm (ds ++ [d])
    calc ((index.keys.put d.key d).entries.map Prod.snd ++
          (index.duplicates ++ (index.keys.get? d.key).toList)).Perm
            ((index.keys.put d.key d).entries.map Prod.snd ++
              ((index.keys.get? d.key).toList ++ index.duplicates)) :=
          List.perm_append_comm.append_left _
      _ |>.Perm (index.winners ++ [d] ++ index.duplicates) := by
          rw [← List.append_assoc]
          exact put.append_right _
      _ |>.Perm (index.winners ++ index.duplicates ++ [d]) := by
          rw [List.append_assoc, List.append_assoc]
          exact List.perm_append_comm.append_left _
      _ |>.Perm (ds ++ [d]) := h.perm.append_right _

theorem usages_register (index : Index) (d : Definition) :
    (index.register d).value.usages = index.usages := by
  rw [value_register]

/-- So are any number of registrations. -/
theorem Summarises.registerAll {index : Index} {ds : List Definition} (h : index.Summarises ds)
    (more : List Definition) : (index.registerAll more).value.Summarises (ds ++ more) := by
  induction more generalizing index ds with
  | nil => simpa [Index.registerAll] using h
  | cons d rest ih =>
    have := ih (h.register d)
    simpa [Index.registerAll] using this

theorem usages_registerAll (index : Index) (more : List Definition) :
    (index.registerAll more).value.usages = index.usages := by
  induction more generalizing index with
  | nil => rfl
  | cons d rest ih =>
    show ((index.register d).value.registerAll rest).value.usages = _
    rw [ih, usages_register]

/-! ## Merging files -/

theorem Summarises.merge {index : Index} {ds : List Definition} (h : index.Summarises ds)
    (file : FileIndex) : (index.merge file).value.Summarises (ds ++ file.registrations) := by
  -- usages are no part of what is summarised
  have all := h.registerAll file.registrations
  exact ⟨all.get?_keys, all.duplicates_eq, all.perm⟩

theorem usages_merge (index : Index) (file : FileIndex) :
    (index.merge file).value.usages = index.usages ++ file.usages := by
  show (index.registerAll file.registrations).value.usages ++ file.usages = _
  rw [usages_registerAll]

theorem Summarises.mergeAll {index : Index} {ds : List Definition} (h : index.Summarises ds)
    (files : List FileIndex) :
    (index.mergeAll files).value.Summarises (ds ++ files.flatMap (·.registrations)) := by
  induction files generalizing index ds with
  | nil => simpa [Index.mergeAll] using h
  | cons file rest ih =>
    have := ih (h.merge file)
    simpa [Index.mergeAll] using this

theorem usages_mergeAll (index : Index) (files : List FileIndex) :
    (index.mergeAll files).value.usages = index.usages ++ files.flatMap (·.usages) := by
  induction files generalizing index with
  | nil => simp [Index.mergeAll]
  | cons file rest ih =>
    show ((index.merge file).value.mergeAll rest).value.usages = _
    rw [ih, usages_merge, List.flatMap_cons, List.append_assoc]

/-- Merging files, one after another: each key has its last registration, the usages are those of all
files, the duplicates are the displaced registrations, and no registration is lost or counted
twice. -/
theorem mergeAll_last_registration_counts (files : List FileIndex) :
    let index := (Index.empty.mergeAll files).value
    let registrations := files.flatMap (·.registrations)
    (∀ key, index.keys.get? key = lastOf? key registrations) ∧
    (∀ key, index.keys.get? key = none ↔ ∀ d ∈ registrations, d.key ≠ key) ∧
    index.usages = files.flatMap (·.usages) ∧
    index.duplicates = displaced registrations ∧
    (index.winners ++ index.duplicates).Perm registrations := by
  intro index registrations
  have h : index.Summarises registrations := Summarises.empty.mergeAll files
  refine ⟨h.get?_keys, ?_, usages_mergeAll .empty files, h.duplicates_eq, h.perm⟩
  intro key
  rw [h.get?_keys]
  exact lastOf?_eq_none_iff

end Index

end ContainerKeys
