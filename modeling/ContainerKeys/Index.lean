import ContainerKeys.FileIndex

/-!
# The index

The index of a workspace: the definition that counts for each key, all usages in order, and the
registrations that a later one of the same key displaced. File indexes are merged one after another;
the last registration of a key counts.
-/

namespace ContainerKeys

/-- The registered keys and all usages of a workspace. -/
structure Index where
  /-- The definition that counts for each key. -/
  keys : Table String Definition
  usages : List Usage
  /-- The displaced registrations, in the order in which they were displaced. -/
  duplicates : List Definition

namespace Index

/-- The index of no files. -/
def empty : Index := ⟨.empty, [], []⟩

instance : Inhabited Index := ⟨empty⟩

/-- Takes one registration in; the one that it displaces goes to the duplicates. -/
def register (index : Index) (d : Definition) : Logged Index := do
  match index.keys.get? d.key with
  | some previous =>
    Logged.note .debug .merging
      ("Key \"" ++ d.key ++ "\" registered again in " ++ d.registeredIn ++ "; replacing " ++
        previous.registeredIn)
    return { index with
      keys := index.keys.put d.key d
      duplicates := index.duplicates ++ [previous] }
  | none => return { index with keys := index.keys.put d.key d }

/-- Takes registrations in, one after another. -/
def registerAll (index : Index) : List Definition → Logged Index
  | [] => return index
  | d :: rest => do (← index.register d).registerAll rest

/-- Merges a file index. -/
def merge (index : Index) (file : FileIndex) : Logged Index := do
  let index ← index.registerAll file.registrations
  return { index with usages := index.usages ++ file.usages }

/-- Merges file indexes, one after another. -/
def mergeAll (index : Index) : List FileIndex → Logged Index
  | [] => return index
  | file :: rest => do (← index.merge file).mergeAll rest

/-! ## Views -/

/-- The definition that counts for a key. -/
def lookup (index : Index) (key : String) : Option Definition :=
  index.keys.get? key

/-- The usages in a file. -/
def usagesIn (index : Index) (file : Path) : List Usage :=
  index.usages.filter (·.file = file)

/-- The first usage in a file whose range contains a position. -/
def usageAt? (index : Index) (file : Path) (p : Position) : Option Usage :=
  index.usages.find? fun u => u.file = file && u.range.contains p

/-- The definitions that count, by the order of their keys. -/
def sortedKeys (index : Index) : List Definition :=
  (index.keys.entries.mergeSort fun a b => a.1 ≤ b.1).map Prod.snd

/-- The number of usages of each kind that occurs, in the order of first occurrence. -/
def usageCounts (index : Index) : List (UsageKind × Nat) :=
  (distinct (index.usages.map (·.kind))).map fun kind =>
    (kind, index.usages.countP (·.kind = kind))

end Index

end ContainerKeys
