/-!
# Tables

A table maps keys to values and keeps its keys in the order in which they were first put in. A
key put in again keeps its place and takes the new value. Beside it stands `distinct`, the first
occurrences of a list.

* `Table.get?_put` — a look-up after `put` finds the new value and leaves the others alone.
* `Table.keys_put` — a new key goes to the end, an old one keeps its place.
* `mem_distinct`, `nodup_distinct` — `distinct` keeps every element, once.
-/

namespace ContainerKeys

/-! ## First occurrences -/

/-- The elements of a list in the order of their first occurrences, each once. -/
def distinct [DecidableEq α] : List α → List α
  | [] => []
  | a :: rest => a :: (distinct rest).filter (· ≠ a)

@[simp] theorem mem_distinct [DecidableEq α] {a : α} {l : List α} : a ∈ distinct l ↔ a ∈ l := by
  induction l with
  | nil => simp [distinct]
  | cons b rest ih => by_cases h : a = b <;> simp [distinct, ih, h]

theorem nodup_distinct [DecidableEq α] (l : List α) : (distinct l).Nodup := by
  induction l with
  | nil => simp [distinct]
  | cons b rest ih =>
    rw [distinct, List.nodup_cons]
    exact ⟨by simp, List.Pairwise.filter _ ih⟩

/-! ## Association lists -/

/-- Puts a value under a key: in the place of the old one, or at the end. -/
def putEntry [DecidableEq α] (key : α) (value : β) : List (α × β) → List (α × β)
  | [] => [(key, value)]
  | (k, v) :: rest => if k = key then (k, value) :: rest else (k, v) :: putEntry key value rest

/-- The value that stands first under a key. -/
def entryValue? [DecidableEq α] (key : α) : List (α × β) → Option β
  | [] => none
  | (k, v) :: rest => if k = key then some v else entryValue? key rest

theorem map_fst_putEntry [DecidableEq α] (key : α) (value : β) (entries : List (α × β)) :
    (putEntry key value entries).map Prod.fst =
      if key ∈ entries.map Prod.fst then entries.map Prod.fst
      else entries.map Prod.fst ++ [key] := by
  induction entries with
  | nil => simp [putEntry]
  | cons entry rest ih =>
    obtain ⟨k, v⟩ := entry
    by_cases h : k = key
    · simp [putEntry, h]
    · have h' : ¬ key = k := fun e => h e.symm
      simp only [putEntry, if_neg h, List.map_cons, ih, List.mem_cons, h', false_or]
      split <;> simp

theorem entryValue?_putEntry [DecidableEq α] (key other : α) (value : β)
    (entries : List (α × β)) :
    entryValue? other (putEntry key value entries) =
      if other = key then some value else entryValue? other entries := by
  induction entries with
  | nil =>
    by_cases h : other = key
    · simp [putEntry, entryValue?, h]
    · have h' : ¬ key = other := fun e => h e.symm
      simp [putEntry, entryValue?, h, h']
  | cons entry rest ih =>
    obtain ⟨k, v⟩ := entry
    by_cases hk : k = key
    · subst hk
      by_cases h : other = k
      · simp [putEntry, entryValue?, h]
      · have h' : ¬ k = other := fun e => h e.symm
        simp [putEntry, entryValue?, h, h']
    · by_cases h : k = other
      · subst h; simp [putEntry, entryValue?, hk]
      · simp [putEntry, entryValue?, hk, h, ih]

/-! ## Tables -/

/-- A table with distinct keys, in the order in which they were first put in. -/
structure Table (α β : Type) where
  entries : List (α × β)
  nodup : (entries.map Prod.fst).Nodup

namespace Table

variable {α β : Type}

/-- The table without entries. -/
def empty : Table α β := ⟨[], by simp⟩

instance : Inhabited (Table α β) := ⟨empty⟩

/-- The keys, in order. -/
def keys (t : Table α β) : List α := t.entries.map Prod.fst

/-- The value under a key. -/
def get? [DecidableEq α] (t : Table α β) (key : α) : Option β := entryValue? key t.entries

/-- Does the table have the key? -/
def has [DecidableEq α] (t : Table α β) (key : α) : Bool := (t.get? key).isSome

/-- The number of entries. -/
def size (t : Table α β) : Nat := t.entries.length

/-- Puts a value under a key: in the place of the old one, or at the end. -/
def put [DecidableEq α] (t : Table α β) (key : α) (value : β) : Table α β where
  entries := putEntry key value t.entries
  nodup := by
    rw [map_fst_putEntry]
    split
    · exact t.nodup
    · rename_i h
      refine List.nodup_append.mpr ⟨t.nodup, by simp, ?_⟩
      intro a ha b hb
      simp only [List.mem_singleton] at hb
      exact fun e => h (hb ▸ e ▸ ha)

/-- Puts all entries of a list, one after another. -/
def putAll [DecidableEq α] (t : Table α β) (entries : List (α × β)) : Table α β :=
  entries.foldl (fun t e => t.put e.1 e.2) t

/-- Changes the value under a key, which is `start` when the key is new. -/
def update [DecidableEq α] (t : Table α β) (key : α) (start : β) (f : β → β) : Table α β :=
  t.put key (f ((t.get? key).getD start))

@[simp] theorem get?_empty [DecidableEq α] (key : α) : (empty : Table α β).get? key = none := rfl

@[simp] theorem keys_empty : (empty : Table α β).keys = [] := rfl

theorem get?_put [DecidableEq α] (t : Table α β) (key other : α) (value : β) :
    (t.put key value).get? other = if other = key then some value else t.get? other :=
  entryValue?_putEntry ..

theorem keys_put [DecidableEq α] (t : Table α β) (key : α) (value : β) :
    (t.put key value).keys = if key ∈ t.keys then t.keys else t.keys ++ [key] :=
  map_fst_putEntry ..

end Table

end ContainerKeys
