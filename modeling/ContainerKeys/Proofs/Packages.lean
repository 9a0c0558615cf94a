import ContainerKeys.Proofs.Attempts
import ContainerKeys.Proofs.Probing
import Mathlib.Data.List.Basic

/-!
# Packages

A package is searched for in the directory of the importing file and in those above it. The deepest directory
that serves it wins: one that does not hold packages itself, has the package below it, and whose package
leads to a file. A package that leads to no file hides no other one. The search breaks off only at a manifest
that is nested too deep.

* `Resolution.Gives` — the file that a package, or a path inside it, stands for.
* `Resolution.Serves` — the file that a package stands for if it is found in a directory.
* `Resolution.resolve_deepest_serving` — what a package specifier stands for.
-/

namespace ContainerKeys.Resolution

/-! ## Manifests -/

section

variable {files : FileTree} {p package : Path} {text : List Char}

/-- The file at a path holds a text. -/
def HoldsText (files : FileTree) (p : Path) (text : List Char) : Prop :=
  ∃ bytes, files.read p = .ok bytes ∧ Utf8.decode bytes = .ok text

/-- The manifest of a package names a main module. -/
def NamesMain (files : FileTree) (package : Path) (main : String) : Prop :=
  ∃ text json, HoldsText files (manifestPath package) text ∧
    Json.parse (some files.nestingLimit) text = .ok json ∧ json.field? "main" = some (.str main) ∧ main ≠ ""

/-- The manifest of a package is nested too deep. -/
def ManifestTooDeep (files : FileTree) (package : Path) : Prop :=
  ∃ text fault, HoldsText files (manifestPath package) text ∧
    Json.parse (some files.nestingLimit) text = .error (.tooDeep fault)

/-- What reading a manifest comes to, unless it comes to nothing. -/
theorem readManifest_eq_iff {result : Except Json.Fault Json} (some : result ≠ .error .malformed) :
    readManifest files p = result ↔
      ∃ text, HoldsText files p text ∧ Json.parse (Option.some files.nestingLimit) text = result := by
  unfold readManifest HoldsText
  cases files.read p with
  | error fault => simp [some.symm]
  | ok bytes =>
    cases decoded : Utf8.decode bytes with
    | error fault => simp [decoded, some.symm]
    | ok text => simp [decoded]

theorem mainOf?_eq_some_iff {json : Json} {main : String} :
    mainOf? json = some main ↔ json.field? "main" = some (.str main) ∧ main ≠ "" := by
  unfold mainOf?
  constructor
  · intro h
    split at h
    · rename_i found field
      split at h
      · cases h
      · rename_i some
        cases h
        exact ⟨field, some⟩
    · cases h
  · rintro ⟨field, some⟩
    rw [field]
    exact if_neg some

theorem namesMain_iff {main : String} :
    NamesMain files package main ↔
      ∃ json, readManifest files (manifestPath package) = .ok json ∧ mainOf? json = some main := by
  constructor
  · rintro ⟨text, json, holds, parsed, field⟩
    exact ⟨json, (readManifest_eq_iff (by simp)).mpr ⟨text, holds, parsed⟩, mainOf?_eq_some_iff.mpr field⟩
  · rintro ⟨json, read, named⟩
    rcases (readManifest_eq_iff (by simp)).mp read with ⟨text, holds, parsed⟩
    exact ⟨text, json, holds, parsed, mainOf?_eq_some_iff.mp named⟩

theorem manifestTooDeep_iff :
    ManifestTooDeep files package ↔
      ∃ fault, readManifest files (manifestPath package) = .error (.tooDeep fault) := by
  constructor
  · rintro ⟨text, fault, holds, parsed⟩
    exact ⟨fault, (readManifest_eq_iff (by simp)).mpr ⟨text, holds, parsed⟩⟩
  · rintro ⟨fault, read⟩
    rcases (readManifest_eq_iff (by simp)).mp read with ⟨text, holds, parsed⟩
    exact ⟨text, fault, holds, parsed⟩

/-- A manifest that is missing counts as one that cannot be read. -/
theorem outcome_packageMain (files : FileTree) (package : Path) :
    (packageMain files package).outcome =
      match readManifest files (manifestPath package) with
      | .ok json => .ok (mainOf? json)
      | .error (.tooDeep fault) => .error fault
      | .error .malformed => .ok none := by
  unfold packageMain
  dsimp only
  cases file : files.isFile (manifestPath package) with
  | true =>
    rw [if_pos rfl]
    cases readManifest files (manifestPath package) with
    | ok json => rfl
    | error fault => cases fault <;> rfl
  | false =>
    rw [isFile_eq_isSome_read] at file
    unfold readManifest
    cases read : files.read (manifestPath package) with
    | error fault => rfl
    | ok bytes =>
      rw [read] at file
      cases file

/-- The main module of a package is the one that its manifest names. -/
theorem eq_some_iff_of_outcome_packageMain {found : Option String}
    (h : (packageMain files package).outcome = .ok found) :
    ¬ ManifestTooDeep files package ∧ ∀ main, found = some main ↔ NamesMain files package main := by
  rw [outcome_packageMain] at h
  simp only [manifestTooDeep_iff, namesMain_iff]
  cases read : readManifest files (manifestPath package) with
  | ok json =>
    rw [read] at h
    cases h
    simp
  | error fault =>
    rw [read] at h
    cases fault with
    | tooDeep fault => cases h
    | malformed =>
      cases h
      simp

theorem tooDeep_of_outcome_packageMain {fault : Json.TooDeep}
    (h : (packageMain files package).outcome = .error fault) : ManifestTooDeep files package := by
  rw [outcome_packageMain] at h
  rw [manifestTooDeep_iff]
  cases read : readManifest files (manifestPath package) with
  | ok json =>
    rw [read] at h
    cases h
  | error fault =>
    rw [read] at h
    cases fault with
    | tooDeep fault => exact ⟨fault, rfl⟩
    | malformed => cases h

end

/-! ## Inside a package -/

/-- The file that a package, or a path inside it, stands for. -/
inductive Gives (files : FileTree) (package : Path) : (subpath : String) → Path → Prop
  /-- A path inside the package. -/
  | inside {subpath : String} {q : Path} (some : subpath ≠ "")
      (stands : Stands files (Path.join package subpath) q) : Gives files package subpath q
  /-- The main module that the manifest names. -/
  | main {main : String} {q : Path} (named : NamesMain files package main)
      (stands : Stands files (Path.normalize (Path.join package main)) q) : Gives files package "" q
  /-- The index file of the package, if the manifest leads to no main module. -/
  | index {q : Path}
      (noMain : ∀ main q, NamesMain files package main →
        ¬ Stands files (Path.normalize (Path.join package main)) q)
      (stands : Stands files (Path.join package "index") q) : Gives files package "" q

section

variable {files : FileTree} {package : Path} {subpath : String}

theorem Gives.stands_of_ne {q : Path} (gives : Gives files package subpath q) (some : subpath ≠ "") :
    Stands files (Path.join package subpath) q := by
  cases gives with
  | inside _ stands => exact stands
  | main => exact absurd rfl some
  | index => exact absurd rfl some

/-- The main module comes first, the index file second. -/
theorem or_eq_some_iff_gives (absolute : Path.isAbsolute package = true) {main : Option String}
    (named : ∀ m, main = some m ↔ NamesMain files package m) {q : Path} :
    (main.bind fun m => probe files (Path.normalize (Path.join package m))).or
      (probe files (Path.join package "index")) = some q ↔ Gives files package "" q := by
  have mainAbsolute (m : String) : Path.isAbsolute (Path.normalize (Path.join package m)) = true :=
    Path.isAbsolute_normalize (Path.isAbsolute_join absolute m)
  have indexAbsolute : Path.isAbsolute (Path.join package "index") = true :=
    Path.isAbsolute_join absolute "index"
  cases first : main.bind fun m => probe files (Path.normalize (Path.join package m)) with
  | some found =>
    rcases Option.bind_eq_some_iff.mp first with ⟨m, isMain, probed⟩
    rw [Option.some_or, Option.some.injEq]
    constructor
    · rintro rfl
      exact .main ((named m).mp isMain) ((probe_eq_some_iff (mainAbsolute m)).mp probed)
    · intro gives
      cases gives with
      | inside some => exact absurd rfl some
      | main named' stands =>
        have same := isMain.symm.trans ((named _).mpr named')
        cases same
        exact Option.some.inj (((probe_eq_some_iff (mainAbsolute m)).mp probed).symm.trans stands)
      | index noMain =>
        exact absurd ((probe_eq_some_iff (mainAbsolute m)).mp probed) (noMain m found ((named m).mp isMain))
  | none =>
    -- no main module is named, or the one that is named leads to no file
    have noMain (m : String) (q : Path) (isMain : NamesMain files package m) :
        ¬ Stands files (Path.normalize (Path.join package m)) q := by
      intro stands
      rw [(named m).mpr isMain, Option.bind_some, (probe_eq_some_iff (mainAbsolute m)).mpr stands] at first
      cases first
    rw [Option.none_or, probe_eq_some_iff indexAbsolute]
    constructor
    · exact .index noMain
    · intro gives
      cases gives with
      | inside some => exact absurd rfl some
      | main named' stands => exact absurd stands (noMain _ _ named')
      | index noMain stands => exact stands

/-- What a search inside a package comes to. -/
theorem eq_some_iff_of_outcome_resolveInside (absolute : Path.isAbsolute package = true)
    {found : Option Path} (h : (resolveInside files package subpath).outcome = .ok found) :
    ¬ (subpath = "" ∧ ManifestTooDeep files package) ∧
      ∀ q, found = some q ↔ Gives files package subpath q := by
  unfold resolveInside at h
  by_cases whole : subpath = ""
  · subst whole
    rw [if_pos rfl, resolveMain] at h
    rcases Attempt.outcome_bind_eq_ok.mp h with ⟨main, read, rest⟩
    cases rest
    rcases eq_some_iff_of_outcome_packageMain read with ⟨shallow, named⟩
    exact ⟨fun deep => shallow deep.2, fun q => or_eq_some_iff_gives absolute named⟩
  · rw [if_neg whole] at h
    cases h
    refine ⟨fun deep => whole deep.1, fun q => ?_⟩
    rw [probe_eq_some_iff (Path.isAbsolute_join absolute subpath)]
    exact ⟨.inside whole, fun gives => gives.stands_of_ne whole⟩

theorem tooDeep_of_outcome_resolveInside {fault : Json.TooDeep}
    (h : (resolveInside files package subpath).outcome = .error fault) :
    subpath = "" ∧ ManifestTooDeep files package := by
  unfold resolveInside at h
  by_cases whole : subpath = ""
  · rw [if_pos whole, outcome_resolveMain] at h
    cases read : (packageMain files package).outcome with
    | error fault => exact ⟨whole, tooDeep_of_outcome_packageMain read⟩
    | ok main =>
      rw [read] at h
      cases h
  · rw [if_neg whole] at h
    cases h

end

/-! ## The search -/

/-- The directory of a package below a directory. -/
def packageBelow (dir : Path.Normal) (name : String) : Path :=
  Path.join (Path.join dir.path "node_modules") name

/-- A directory that holds a package for the files below it: it does not hold packages itself. -/
structure HoldsPackage (files : FileTree) (name : String) (dir : Path.Normal) : Prop where
  outside : dir.parts.getLast? ≠ some "node_modules".toList
  folder : files.isFolder (packageBelow dir name) = true

/-- The file that a directory leads to for a package, or a path inside it. -/
structure Serves (files : FileTree) (name subpath : String) (dir : Path.Normal) (q : Path) : Prop
    extends HoldsPackage files name dir where
  gives : Gives files (packageBelow dir name) subpath q

/-- A directory at which a search breaks off. -/
structure BreaksOff (files : FileTree) (name subpath : String) (dir : Path.Normal) : Prop
    extends HoldsPackage files name dir where
  whole : subpath = ""
  tooDeep : ManifestTooDeep files (packageBelow dir name)

/-- A directory above which a search goes on. -/
def Passes (files : FileTree) (name subpath : String) (dir : Path.Normal) : Prop :=
  (∀ q, ¬ Serves files name subpath dir q) ∧ ¬ BreaksOff files name subpath dir

section

variable {files : FileTree} {name subpath : String} {dir : Path.Normal}

theorem packageIn?_eq_some_iff {package : Path} :
    packageIn? files name dir.path = some package ↔
      HoldsPackage files name dir ∧ package = packageBelow dir name := by
  have outside : Path.base dir.path = "node_modules" ↔ dir.parts.getLast? = some "node_modules".toList :=
    dir.base_path_eq_iff (by decide)
  change (if Path.base dir.path = "node_modules" then none
    else if files.isFolder (packageBelow dir name) then some (packageBelow dir name) else none) = _ ↔ _
  constructor
  · intro h
    split at h
    · cases h
    · rename_i within
      split at h
      · rename_i folder
        cases h
        exact ⟨⟨fun last => within (outside.mpr last), folder⟩, rfl⟩
      · cases h
  · rintro ⟨holds, rfl⟩
    rw [if_neg fun within => holds.outside (outside.mp within), if_pos holds.folder]

/-- What one directory does to a search. -/
theorem outcome_searchFolders_cases (files : FileTree) (name subpath : String) (dir : Path.Normal)
    (rest : List Path) :
    (∃ q, (∀ q', Serves files name subpath dir q' ↔ q' = q) ∧ ¬ BreaksOff files name subpath dir ∧
      (searchFolders files name subpath (dir.path :: rest)).outcome = .ok (some q)) ∨
    (BreaksOff files name subpath dir ∧
      ∃ fault, (searchFolders files name subpath (dir.path :: rest)).outcome = .error fault) ∨
    (Passes files name subpath dir ∧
      (searchFolders files name subpath (dir.path :: rest)).outcome =
        (searchFolders files name subpath rest).outcome) := by
  rw [outcome_searchFolders_cons]
  cases held : packageIn? files name dir.path with
  | none =>
    have nothing : ¬ HoldsPackage files name dir := by
      intro holds
      rw [packageIn?_eq_some_iff.mpr ⟨holds, rfl⟩] at held
      cases held
    exact Or.inr (Or.inr ⟨⟨fun q serves => nothing serves.toHoldsPackage,
      fun breaks => nothing breaks.toHoldsPackage⟩, rfl⟩)
  | some package =>
    rcases packageIn?_eq_some_iff.mp held with ⟨holds, rfl⟩
    have absolute : Path.isAbsolute (packageBelow dir name) = true :=
      Path.isAbsolute_join (Path.isAbsolute_join dir.isAbsolute_path _) _
    dsimp only
    cases result : (resolveInside files (packageBelow dir name) subpath).outcome with
    | error fault =>
      rcases tooDeep_of_outcome_resolveInside result with ⟨whole, deep⟩
      exact Or.inr (Or.inl ⟨⟨holds, whole, deep⟩, fault, rfl⟩)
    | ok found =>
      rcases eq_some_iff_of_outcome_resolveInside absolute result with ⟨shallow, gives⟩
      have goesOn : ¬ BreaksOff files name subpath dir := fun breaks => shallow ⟨breaks.whole, breaks.tooDeep⟩
      cases found with
      | some q =>
        refine Or.inl ⟨q, fun q' => ?_, goesOn, rfl⟩
        constructor
        · intro serves
          exact (Option.some.inj ((gives q').mpr serves.gives)).symm
        · rintro rfl
          exact ⟨holds, (gives q').mp rfl⟩
      | none =>
        refine Or.inr (Or.inr ⟨⟨fun q serves => ?_, goesOn⟩, rfl⟩)
        cases (gives q).mpr serves.gives

variable {n : Path.Normal} {k : Nat} {found : Option Path}

/-- What all directories up to a depth do to a search: it ends at the first that it does not pass. -/
theorem outcome_searchFolders_foldersBelow (files : FileTree) (name subpath : String) (n : Path.Normal)
    (k : Nat) :
    (∃ i < k, ∃ q, (∀ q', Serves files name subpath (n.upTo i) q' ↔ q' = q) ∧
      ¬ BreaksOff files name subpath (n.upTo i) ∧
      (∀ j, i < j → j < k → Passes files name subpath (n.upTo j)) ∧
      (searchFolders files name subpath (n.foldersBelow k)).outcome = .ok (some q)) ∨
    (∃ i < k, BreaksOff files name subpath (n.upTo i) ∧
      (∀ j, i < j → j < k → Passes files name subpath (n.upTo j)) ∧
      ∃ fault, (searchFolders files name subpath (n.foldersBelow k)).outcome = .error fault) ∨
    ((∀ j < k, Passes files name subpath (n.upTo j)) ∧
      (searchFolders files name subpath (n.foldersBelow k)).outcome = .ok none) := by
  induction k with
  | zero => exact Or.inr (Or.inr ⟨fun j none => absurd none (Nat.not_lt_zero j), rfl⟩)
  | succ k ih =>
    -- the deepest directory comes first
    have deepest : ∀ j, k < j → j < k + 1 → Passes files name subpath (n.upTo j) := by
      intro j lower upper
      omega
    rcases outcome_searchFolders_cases files name subpath (n.upTo k) (n.foldersBelow k) with
      ⟨q, serves, goesOn, result⟩ | ⟨breaks, result⟩ | ⟨passes, result⟩
    · exact Or.inl ⟨k, Nat.lt_succ_self k, q, serves, goesOn, deepest, result⟩
    · exact Or.inr (Or.inl ⟨k, Nat.lt_succ_self k, breaks, deepest, result⟩)
    · have extend {i : Nat} (above : ∀ j, i < j → j < k → Passes files name subpath (n.upTo j)) :
          ∀ j, i < j → j < k + 1 → Passes files name subpath (n.upTo j) := by
        intro j lower upper
        rcases Nat.lt_succ_iff_lt_or_eq.mp upper with less | rfl
        · exact above j lower less
        · exact passes
      rw [Path.Normal.foldersBelow, result]
      rcases ih with ⟨i, less, q, serves, goesOn, above, ended⟩ | ⟨i, less, breaks, above, ended⟩ |
        ⟨all, ended⟩
      · exact Or.inl ⟨i, Nat.lt_succ_of_lt less, q, serves, goesOn, extend above, ended⟩
      · exact Or.inr (Or.inl ⟨i, Nat.lt_succ_of_lt less, breaks, extend above, ended⟩)
      · refine Or.inr (Or.inr ⟨fun j upper => ?_, ended⟩)
        rcases Nat.lt_succ_iff_lt_or_eq.mp upper with less | rfl
        · exact all j less
        · exact passes

/-- A search comes to an end unless it gets to a directory at which it breaks off. -/
theorem exists_outcome_searchFolders_iff (files : FileTree) (name subpath : String) (n : Path.Normal)
    (k : Nat) :
    (∃ found, (searchFolders files name subpath (n.foldersBelow k)).outcome = .ok found) ↔
      ∀ i < k, BreaksOff files name subpath (n.upTo i) →
        ∃ j, i < j ∧ j < k ∧ ∃ q, Serves files name subpath (n.upTo j) q := by
  rcases outcome_searchFolders_foldersBelow files name subpath n k with
    ⟨i, less, q, serves, goesOn, above, ended⟩ | ⟨i, less, breaks, above, fault, ended⟩ | ⟨all, ended⟩
  · refine iff_of_true ⟨some q, ended⟩ fun j upper breaks => ?_
    rcases Nat.lt_trichotomy i j with deeper | rfl | higher
    · exact absurd breaks (above j deeper upper).2
    · exact absurd breaks goesOn
    · exact ⟨i, higher, less, q, (serves q).mpr rfl⟩
  · refine iff_of_false ?_ fun served => ?_
    · rintro ⟨found, ok⟩
      rw [ended] at ok
      cases ok
    · rcases served i less breaks with ⟨j, deeper, upper, q, serves⟩
      exact (above j deeper upper).1 q serves
  · exact iff_of_true ⟨none, ended⟩ fun i upper breaks => absurd breaks (all i upper).2

/-- The deepest directory that serves wins. -/
theorem eq_some_iff_of_outcome_searchFolders
    (h : (searchFolders files name subpath (n.foldersBelow k)).outcome = .ok found) (q : Path) :
    found = some q ↔ ∃ i < k, Serves files name subpath (n.upTo i) q ∧
      ∀ j, i < j → j < k → ∀ q', ¬ Serves files name subpath (n.upTo j) q' := by
  rcases outcome_searchFolders_foldersBelow files name subpath n k with
    ⟨i, less, q', serves, goesOn, above, ended⟩ | ⟨i, less, breaks, above, fault, ended⟩ | ⟨all, ended⟩
  · rw [ended] at h
    cases h
    constructor
    · intro same
      cases same
      exact ⟨i, less, (serves q).mpr rfl, fun j deeper upper => (above j deeper upper).1⟩
    · rintro ⟨j, upper, serves', unserved⟩
      -- the search ended at `i`, so nothing deeper serves, and nothing above `i` is the deepest
      rcases Nat.lt_trichotomy i j with deeper | rfl | higher
      · exact absurd serves' ((above j deeper upper).1 q)
      · rw [(serves q).mp serves']
      · exact absurd ((serves q').mpr rfl) (unserved i higher less q')
  · rw [ended] at h
    cases h
  · rw [ended] at h
    cases h
    refine iff_of_false (by simp) ?_
    rintro ⟨i, upper, serves, -⟩
    exact (all i upper).1 q serves

/-- A search that finds nothing has no directory that serves. -/
theorem eq_none_iff_of_outcome_searchFolders
    (h : (searchFolders files name subpath (n.foldersBelow k)).outcome = .ok found) :
    found = none ↔ ∀ i < k, ∀ q, ¬ Serves files name subpath (n.upTo i) q := by
  rcases outcome_searchFolders_foldersBelow files name subpath n k with
    ⟨i, less, q, serves, goesOn, above, ended⟩ | ⟨i, less, breaks, above, fault, ended⟩ | ⟨all, ended⟩
  · rw [ended] at h
    cases h
    exact iff_of_false (by simp) fun unserved => unserved i less q ((serves q).mpr rfl)
  · rw [ended] at h
    cases h
  · rw [ended] at h
    cases h
    exact iff_of_true rfl fun i upper => (all i upper).1

end

/-- A package specifier is searched for in the directory of the file and those above it. -/
theorem outcome_resolve_package (files : FileTree) {specifier : String} {importer : Path}
    {n : Path.Normal} (absolute : files.absolute importer = .ok n.path)
    (package : isPathSpecifier specifier = false) (searched : ¬ NamesNoPackage specifier) :
    (resolve files specifier importer).outcome =
      (searchFolders files (splitPackage specifier).1 (splitPackage specifier).2
        (n.foldersBelow (n.parts.length - 1 + 1))).outcome := by
  have folder : folderOf files importer = (n.upTo (n.parts.length - 1)).path := by
    rw [folderOf, absolute]
    exact n.parent_path
  rw [outcome_resolve, if_neg (by simp [package]), if_neg searched, folder,
    n.ancestors_upTo (Nat.sub_le _ _)]

/-- What a package specifier stands for in a file: the deepest of the directories above the file that serves
it leads to the file. The search ends unless it gets to a manifest that is nested too deep. -/
theorem resolve_deepest_serving (files : FileTree) {specifier : String} {importer : Path}
    {n : Path.Normal} (absolute : files.absolute importer = .ok n.path)
    (package : isPathSpecifier specifier = false) (searched : ¬ NamesNoPackage specifier) :
    let serves k := Serves files (splitPackage specifier).1 (splitPackage specifier).2 (n.upTo k)
    let breaksOff k := BreaksOff files (splitPackage specifier).1 (splitPackage specifier).2 (n.upTo k)
    let depth := n.parts.length - 1
    ((∃ found, (resolve files specifier importer).outcome = .ok found) ↔
      ∀ k ≤ depth, breaksOff k → ∃ j, k < j ∧ j ≤ depth ∧ ∃ q, serves j q) ∧
    ∀ found, (resolve files specifier importer).outcome = .ok found →
      (∀ q, found = some q ↔
        ∃ k ≤ depth, serves k q ∧ ∀ j, k < j → j ≤ depth → ∀ q', ¬ serves j q') ∧
      (found = none ↔ ∀ k ≤ depth, ∀ q, ¬ serves k q) := by
  intro serves breaksOff depth
  rw [outcome_resolve_package files absolute package searched]
  refine ⟨?_, fun found h => ⟨fun q => ?_, ?_⟩⟩
  · simpa only [Nat.lt_succ_iff] using exists_outcome_searchFolders_iff files _ _ n (depth + 1)
  · simpa only [Nat.lt_succ_iff] using eq_some_iff_of_outcome_searchFolders h q
  · simpa only [Nat.lt_succ_iff] using eq_none_iff_of_outcome_searchFolders h

/-- The directory of the file itself comes first. -/
theorem outcome_resolve_of_serves (files : FileTree) {specifier : String} {importer q : Path}
    {n : Path.Normal} (absolute : files.absolute importer = .ok n.path)
    (package : isPathSpecifier specifier = false) (searched : ¬ NamesNoPackage specifier)
    (some : (splitPackage specifier).2 ≠ "")
    (serves : Serves files (splitPackage specifier).1 (splitPackage specifier).2
      (n.upTo (n.parts.length - 1)) q) :
    (resolve files specifier importer).outcome = .ok (Option.some q) := by
  rw [outcome_resolve_package files absolute package searched, Path.Normal.foldersBelow]
  rcases outcome_searchFolders_cases files (splitPackage specifier).1 (splitPackage specifier).2
      (n.upTo (n.parts.length - 1)) (n.foldersBelow (n.parts.length - 1)) with
    ⟨q', only, -, result⟩ | ⟨breaks, -⟩ | ⟨passes, -⟩
  · rw [result, (only q).mp serves]
  · exact absurd breaks.whole some
  · exact absurd serves (passes.1 q)

/-! ## Two packages of one name -/

/-- The package `p` in `/w` and in the root, with these entries, and what else is in `/w`. -/
def packageTree (near far beside : List (String × Entry)) : FileTree where
  root := .folder [
    ("node_modules", .folder [("p", .folder far)]),
    ("w", .folder (("node_modules", .folder [("p", .folder near)]) :: beside))]
  cwd := some "/"

/-- A file in `/w`. -/
def importingFile : Path.Normal where
  mark := ['/']
  parts := [['w'], ['a', '.', 'j', 's']]
  isMark := Or.inl rfl
  plain := by decide

theorem absolute_importingFile (near far beside : List (String × Entry)) :
    (packageTree near far beside).absolute "/w/a.js" = .ok importingFile.path := by
  rfl

theorem packageBelow_near : packageBelow (importingFile.upTo 1) "p" = "/w/node_modules/p" := by decide

theorem packageBelow_far : packageBelow (importingFile.upTo 0) "p" = "/node_modules/p" := by decide

theorem holdsPackage_near (near far beside : List (String × Entry)) :
    HoldsPackage (packageTree near far beside) "p" (importingFile.upTo 1) := by
  refine ⟨by decide, ?_⟩
  rw [packageBelow_near]
  rfl

theorem holdsPackage_far (near far beside : List (String × Entry)) :
    HoldsPackage (packageTree near far beside) "p" (importingFile.upTo 0) := by
  refine ⟨by decide, ?_⟩
  rw [packageBelow_far]
  rfl

/-- An empty package leads to no file. -/
theorem passes_near (far beside : List (String × Entry)) :
    Passes (packageTree [] far beside) "p" "" (importingFile.upTo 1) := by
  have manifest : readManifest (packageTree [] far beside) (manifestPath "/w/node_modules/p") =
      .error .malformed := by
    have path : manifestPath "/w/node_modules/p" = "/w/node_modules/p/package.json" := by decide
    rw [path]
    rfl
  have index : modulePaths (Path.join "/w/node_modules/p" "index") =
      ["/w/node_modules/p/index", "/w/node_modules/p/index.js", "/w/node_modules/p/index.jsx",
        "/w/node_modules/p/index.mjs", "/w/node_modules/p/index.cjs", "/w/node_modules/p/index.ts",
        "/w/node_modules/p/index.tsx", "/w/node_modules/p/index/index.js",
        "/w/node_modules/p/index/index.jsx", "/w/node_modules/p/index/index.mjs",
        "/w/node_modules/p/index/index.cjs", "/w/node_modules/p/index/index.ts",
        "/w/node_modules/p/index/index.tsx"] := by decide
  have noIndex (q : Path) :
      ¬ Stands (packageTree [] far beside) (Path.join "/w/node_modules/p" "index") q := by
    have nothing : (modulePaths (Path.join "/w/node_modules/p" "index")).find?
        (packageTree [] far beside).isFile = none := by
      rw [index]
      rfl
    simp [Stands, nothing]
  constructor
  · intro q serves
    have gives := serves.gives
    rw [packageBelow_near] at gives
    cases gives with
    | inside some => exact some rfl
    | main named =>
      rcases namesMain_iff.mp named with ⟨json, read, -⟩
      rw [manifest] at read
      cases read
    | index noMain stands => exact noIndex q stands
  · intro breaks
    have deep := breaks.tooDeep
    rw [packageBelow_near] at deep
    rcases manifestTooDeep_iff.mp deep with ⟨fault, read⟩
    rw [manifest] at read
    cases read

/-- A manifest that names a module. -/
def mainManifest : Bytes :=
  Utf8.asciiBytes "\x7b\"main\":\"./lib\"\x7d"

theorem readManifest_far (near far beside : List (String × Entry)) :
    readManifest (packageTree near (("package.json", .file mainManifest) :: far) beside)
      (manifestPath "/node_modules/p") = .ok (.obj [("main", .str "./lib")]) := by
  have path : manifestPath "/node_modules/p" = "/node_modules/p/package.json" := by decide
  refine (readManifest_eq_iff (by simp)).mpr
    ⟨_, ⟨mainManifest, ?_, Utf8.decode_asciiBytes (by decide)⟩, rfl⟩
  rw [path]
  rfl

/-- The nearer package leads to no file and does not hide the farther one, whose manifest names a module. -/
theorem resolve_deepest_serving_far :
    let files := packageTree [] [("package.json", .file mainManifest), ("lib.js", .file [])] []
    (∀ q, ¬ Serves files "p" "" (importingFile.upTo 1) q) ∧
      Serves files "p" "" (importingFile.upTo 0) "/node_modules/p/lib.js" ∧
      (resolve files "p" "/w/a.js").outcome = .ok (some "/node_modules/p/lib.js") := by
  intro files
  have near : Passes files "p" "" (importingFile.upTo 1) := passes_near _ _
  have manifest : readManifest files (manifestPath "/node_modules/p") = .ok (.obj [("main", .str "./lib")]) :=
    readManifest_far _ _ _
  have far : Serves files "p" "" (importingFile.upTo 0) "/node_modules/p/lib.js" := by
    have module : Path.normalize (Path.join "/node_modules/p" "./lib") = "/node_modules/p/lib" := by decide
    have withJs : "/node_modules/p/lib" ++ ".js" = "/node_modules/p/lib.js" := by decide
    have stands : Stands files "/node_modules/p/lib" ("/node_modules/p/lib" ++ ".js") := by
      apply stands_js
      · decide +kernel
      · rw [withJs]
        decide +kernel
    refine ⟨holdsPackage_far _ _ _, ?_⟩
    rw [packageBelow_far, ← withJs]
    exact .main (namesMain_iff.mpr ⟨_, manifest, by decide⟩) (module ▸ stands)
  have absolute : files.absolute "/w/a.js" = .ok importingFile.path := absolute_importingFile _ _ _
  have split : splitPackage "p" = ("p", "") := by decide +kernel
  rcases resolve_deepest_serving files absolute (by decide +kernel) (by decide : ¬ NamesNoPackage "p") with
    ⟨ends, result⟩
  rw [split] at ends result
  have ended : ∃ found, (resolve files "p" "/w/a.js").outcome = .ok found := by
    refine ends.mpr fun k upper breaks => ?_
    rcases Nat.le_one_iff_eq_zero_or_eq_one.mp upper with rfl | rfl
    · have deep := breaks.tooDeep
      rw [packageBelow_far] at deep
      rcases manifestTooDeep_iff.mp deep with ⟨fault, read⟩
      rw [manifest] at read
      cases read
    · exact absurd breaks near.2
  rcases ended with ⟨found, ended⟩
  have isFar : found = some "/node_modules/p/lib.js" := by
    refine ((result found ended).1 _).mpr ⟨0, Nat.zero_le _, far, fun j lower upper => ?_⟩
    have one : j = 1 := Nat.le_antisymm upper lower
    subst one
    exact near.1
  exact ⟨near.1, far, isFar ▸ ended⟩

/-! ## A manifest that is nested too deep -/

/-- A bracket opens an array where a value may come. -/
theorem feed_bracket (limit : Option Nat) {frames : List Json.Frame} {next : Json.Next} {result : Json}
    (value : next = .value ∨ next = .valueOrClose) :
    Json.Scan.feed limit ⟨.idle, ⟨frames, next, result⟩⟩ '[' =
      match Json.Reading.openFrame limit frames .array with
      | .ok reading => .ok ⟨.idle, reading⟩
      | .error fault => .error fault := by
  have opens : Json.Reading.read limit ⟨frames, next, result⟩ .openArray =
      Json.Reading.openFrame limit frames .array := by
    rcases value with rfl | rfl <;> rfl
  have token : Json.feed .idle '[' = some ([.openArray], .idle) := rfl
  rw [← opens]
  simp only [Json.Scan.feed, token, List.foldlM_cons]
  cases Json.Reading.read limit ⟨frames, next, result⟩ .openArray <;> rfl

/-- A text that opens more arrays than may be open is nested too deep, whatever follows. -/
theorem run_replicate {limit m : Nat} {frames : List Json.Frame} {next : Json.Next} {result : Json}
    (value : next = .value ∨ next = .valueOrClose) (shallow : frames.length ≤ limit)
    (deep : limit < frames.length + m) (rest : List Char) :
    Json.Scan.run (some limit) ⟨.idle, ⟨frames, next, result⟩⟩ (List.replicate m '[' ++ rest) =
      .error (.tooDeep ⟨.array⟩) := by
  induction m generalizing frames next result with
  | zero => omega
  | succ m ih =>
    rw [List.replicate_succ, List.cons_append, Json.Scan.run, feed_bracket _ value, Json.Reading.openFrame]
    by_cases full : limit ≤ frames.length
    · simp [full]
    · simp only [Option.any_some, full, decide_false, Bool.false_eq_true, if_false]
      exact ih (Or.inr rfl) (by simp; omega) (by simp; omega)

/-- One bracket more than may be open. -/
def nestedManifest : Bytes :=
  List.replicate 981 0x5B

/-- A package with an index file and a manifest that is nested too deep. -/
def nestedPackage : FileTree :=
  packageTree [("package.json", .file nestedManifest), ("index.js", .file [])] [] []

theorem readManifest_nested :
    readManifest nestedPackage (manifestPath "/w/node_modules/p") = .error (.tooDeep ⟨.array⟩) := by
  have path : manifestPath "/w/node_modules/p" = "/w/node_modules/p/package.json" := by decide
  have read (bytes : Bytes) (more : List (String × Entry)) :
      (packageTree (("package.json", .file bytes) :: more) [] []).read "/w/node_modules/p/package.json" =
        .ok bytes := by
    rfl
  have ascii : ∀ b ∈ nestedManifest, b.toNat < 0x80 := by
    intro b member
    rw [List.eq_of_mem_replicate member]
    decide
  have decoded : Utf8.decode nestedManifest = .ok (List.replicate 981 '[' ++ []) := by
    rw [Utf8.decode_of_ascii ascii, nestedManifest, List.map_replicate, List.append_nil]
    rfl
  refine (readManifest_eq_iff (by simp)).mpr ⟨_, ⟨nestedManifest, path ▸ read _ _, decoded⟩, ?_⟩
  exact run_replicate (Or.inl rfl) (Nat.zero_le _) (by decide) []

/-- A directory serves a package, but the search for it breaks off. -/
theorem served_package_unresolved :
    Serves nestedPackage "p" "" (importingFile.upTo 1) "/w/node_modules/p/index.js" ∧
      ∀ found, (resolve nestedPackage "p" "/w/a.js").outcome ≠ .ok found := by
  have holds : HoldsPackage nestedPackage "p" (importingFile.upTo 1) := holdsPackage_near _ _ _
  constructor
  · have index : Path.join "/w/node_modules/p" "index" = "/w/node_modules/p/index" := by decide
    have withJs : "/w/node_modules/p/index" ++ ".js" = "/w/node_modules/p/index.js" := by decide
    have isFile (bytes : Bytes) : (packageTree [("package.json", .file bytes), ("index.js", .file [])]
        [] []).isFile "/w/node_modules/p/index.js" = true := by
      rfl
    have noFile (bytes : Bytes) : (packageTree [("package.json", .file bytes), ("index.js", .file [])]
        [] []).isFile "/w/node_modules/p/index" = false := by
      rfl
    refine ⟨holds, ?_⟩
    rw [packageBelow_near, ← withJs]
    refine .index ?_ ?_
    · intro main q named
      rcases namesMain_iff.mp named with ⟨json, read, -⟩
      rw [readManifest_nested] at read
      cases read
    · rw [index]
      exact stands_js (noFile _) (withJs ▸ isFile _)
  · intro found resolved
    have absolute : nestedPackage.absolute "/w/a.js" = .ok importingFile.path :=
      absolute_importingFile _ _ _
    have split : splitPackage "p" = ("p", "") := by decide +kernel
    rw [outcome_resolve_package _ absolute (by decide +kernel) (by decide), split] at resolved
    have tooDeep : ManifestTooDeep nestedPackage (packageBelow (importingFile.upTo 1) "p") := by
      rw [packageBelow_near, manifestTooDeep_iff]
      exact ⟨_, readManifest_nested⟩
    rcases (exists_outcome_searchFolders_iff nestedPackage "p" "" importingFile 2).mp ⟨found, resolved⟩ 1
      (by decide) ⟨holds, rfl, tooDeep⟩ with ⟨j, lower, upper, -⟩
    omega

end ContainerKeys.Resolution
