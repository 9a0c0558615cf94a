import ContainerKeys.Proofs.Folders
import ContainerKeys.Proofs.Modules
import Mathlib.Data.List.Basic

/-!
# Probing

A module path may stand for several files: for itself, for itself with an extension, and for an index file in
it. The first of these that is there counts. It does not matter that index files are only looked for in a
directory, since an index file makes the module path one.

* `Resolution.modulePaths` — the paths that a module path may stand for.
* `Resolution.probe_eq_some_iff` — a module path stands for the first of them that is a file.
* `Resolution.exists_normal_of_mem_modulePaths` — they are all in normal form if the module path is.
* `Resolution.resolve_first_file` — what a relative or an absolute specifier stands for.
-/

namespace ContainerKeys

namespace Path

/-- A name that goes on goes on behind a directory, too. -/
theorem join_append (p : Path) {name ending : String} (plain : Plain name.toList)
    (whole : Plain (name ++ ending).toList) : join p name ++ ending = join p (name ++ ending) := by
  apply String.toList_injective
  rw [String.toList_append, toList_join p plain.not_isAbsolute, toList_join p whole.not_isAbsolute,
    String.toList_append, List.append_assoc]

theorem isAbsolute_normalize {p : Path} (absolute : isAbsolute p = true) :
    isAbsolute (normalize p) = true := by
  rcases exists_normal_of_isAbsolute absolute with ⟨n, normal, -⟩
  rw [normal]
  exact n.isAbsolute_path

/-- What is written behind a part keeps it plain if it is no mere dots. -/
theorem plain_append {part ending : List Char} (noSlash : '/' ∉ part) (free : '/' ∉ ending)
    (long : 2 < ending.length) : Plain (part ++ ending) := by
  have shorter {other : List Char} (short : other.length ≤ 2) : part ++ ending ≠ other := by
    rintro rfl
    rw [List.length_append] at short
    omega
  refine ⟨shorter (by simp), shorter (by simp), shorter (by simp), ?_⟩
  rw [List.mem_append, not_or]
  exact ⟨noSlash, free⟩

/-- An extension of a path in normal form belongs to its last part; the root gets a part of its own. -/
theorem Normal.exists_append (n : Normal) {ending : String} (free : '/' ∉ ending.toList)
    (long : 2 < ending.toList.length) : ∃ m : Normal, n.path ++ ending = m.path := by
  rcases List.eq_nil_or_concat n.parts with none | ⟨front, last, split⟩
  · have plain : Plain ending.toList := plain_append List.not_mem_nil free long
    let m : Normal := {
      mark := n.mark
      parts := [ending.toList]
      isMark := n.isMark
      plain := fun part member => by rwa [List.mem_singleton.mp member] }
    refine ⟨m, String.toList_injective ?_⟩
    rw [String.toList_append, n.toList_path, m.toList_path, chars, chars, none]
    simp [m, Text.joinWith]
  · rw [List.concat_eq_append] at split
    have known (part : List Char) (member : part ∈ front) : Plain part :=
      n.plain part (split ▸ List.mem_append_left _ member)
    have plain : Plain (last ++ ending.toList) :=
      plain_append (n.plain last (split ▸ List.mem_concat_self)).noSlash free long
    let m : Normal := {
      mark := n.mark
      parts := front ++ [last ++ ending.toList]
      isMark := n.isMark
      plain := fun part member => by
        rcases List.mem_append.mp member with before | here
        · exact known part before
        · rwa [List.mem_singleton.mp here] }
    refine ⟨m, String.toList_injective ?_⟩
    rw [String.toList_append, n.toList_path, m.toList_path, chars, chars, split]
    by_cases only : front = []
    · simp [m, only, Text.joinWith]
    · simp [m, Text.joinWith_append '/' only, Text.joinWith]

/-- A name that is joined to a path in normal form gives one. -/
theorem Normal.exists_join (n : Normal) {name : String} (plain : Plain name.toList) :
    ∃ m : Normal, join n.path name = m.path :=
  ⟨_, n.foldl_join_path (List.cons_ne_nil name []) (by simpa using plain)⟩

end Path

/-- What is made absolute is in normal form, whatever absolute path the current directory has. -/
theorem FileTree.exists_normal_of_absolute {t : FileTree}
    (rooted : ∀ cwd, t.cwd = some cwd → Path.isAbsolute cwd = true) {p q : Path}
    (h : t.absolute p = .ok q) : ∃ n : Path.Normal, q = n.path := by
  unfold absolute at h
  cases current : t.cwd with
  | none =>
    rw [current] at h
    by_cases absolute : Path.isAbsolute p = true
    · rcases Path.exists_normal_of_isAbsolute absolute with ⟨n, normal, -⟩
      simp only [if_pos absolute, Except.ok.injEq] at h
      exact ⟨n, h ▸ normal⟩
    · simp [absolute] at h
  | some cwd =>
    rw [current] at h
    have joined := Path.isAbsolute_join (rooted cwd current) p
    rcases Path.exists_normal_of_isAbsolute joined with ⟨n, normal, -⟩
    exact ⟨n, (Except.ok.inj h).symm.trans normal⟩

namespace Resolution

/-! ## Module paths -/

/-- The paths that a module path may stand for, in order: the path itself, with each extension, and index
files in it. -/
def modulePaths (p : Path) : List Path :=
  p :: withExtensions p ++ withExtensions (Path.join p "index")

/-- A module path stands for the first of its paths that is a file. -/
def Stands (files : FileTree) (p q : Path) : Prop :=
  (modulePaths p).find? files.isFile = some q

theorem stands_js {files : FileTree} {p : Path} (noFile : files.isFile p = false)
    (file : files.isFile (p ++ ".js") = true) : Stands files p (p ++ ".js") := by
  simp [Stands, modulePaths, withExtensions, Code.sourceExtensions, noFile, file]

/-- The names of index files. -/
theorem plain_index : ∀ ending ∈ Code.sourceExtensions, Path.Plain ("index" ++ ending).toList := by
  decide

/-- An index file makes the module path a directory, so it does not matter whether one looks. -/
theorem probe_eq_some_iff {files : FileTree} {p q : Path} (absolute : Path.isAbsolute p = true) :
    probe files p = some q ↔ Stands files p q := by
  rw [probe_eq_find?, Stands, candidates, modulePaths]
  by_cases folder : files.isFolder p = true
  · rw [if_pos folder]
  · -- an index file would make the path that of a directory
    have none : (withExtensions (Path.join p "index")).find? files.isFile = none := by
      apply List.find?_eq_none.mpr
      intro candidate member file
      rcases List.mem_map.mp member with ⟨ending, known, rfl⟩
      rw [Path.join_append p (by decide) (plain_index ending known)] at file
      exact folder (FileTree.isFolder_of_isFile_join absolute (plain_index ending known) file)
    rw [if_neg folder, List.find?_append, List.find?_append, none, List.find?_nil]

/-- The paths one by one. -/
theorem modulePaths_eq (p : Path) :
    modulePaths p =
      [p, p ++ ".js", p ++ ".jsx", p ++ ".mjs", p ++ ".cjs", p ++ ".ts", p ++ ".tsx",
        Path.join p "index.js", Path.join p "index.jsx", Path.join p "index.mjs",
        Path.join p "index.cjs", Path.join p "index.ts", Path.join p "index.tsx"] := by
  have index : withExtensions (Path.join p "index") =
      Code.sourceExtensions.map fun ending => Path.join p ("index" ++ ending) := by
    apply List.map_congr_left
    intro ending known
    exact Path.join_append p (by decide) (plain_index ending known)
  rw [modulePaths, index]
  rfl

/-- If a module path is in normal form, so is all that it may stand for. -/
theorem exists_normal_of_mem_modulePaths {n : Path.Normal} {q : Path} (h : q ∈ modulePaths n.path) :
    ∃ m : Path.Normal, q = m.path := by
  have endings : ∀ ending ∈ Code.sourceExtensions, '/' ∉ ending.toList ∧ 2 < ending.toList.length := by
    decide
  rcases List.mem_append.mp h with direct | index
  · rcases List.mem_cons.mp direct with rfl | extended
    · exact ⟨n, rfl⟩
    · rcases List.mem_map.mp extended with ⟨ending, known, rfl⟩
      rcases endings ending known with ⟨free, long⟩
      exact n.exists_append free long
  · rcases List.mem_map.mp index with ⟨ending, known, rfl⟩
    rw [Path.join_append _ (by decide) (plain_index ending known)]
    exact n.exists_join (plain_index ending known)

/-! ## Relative and absolute specifiers -/

/-- The first of some paths that is a file: it is one, and none before it is. -/
def FirstFile (files : FileTree) (paths : List Path) (q : Path) : Prop :=
  ∃ before after, paths = before ++ q :: after ∧ files.isFile q = true ∧
    ∀ r ∈ before, files.isFile r = false

theorem find?_isFile_eq_some_iff {files : FileTree} {paths : List Path} {q : Path} :
    paths.find? files.isFile = some q ↔ FirstFile files paths q := by
  rw [List.find?_eq_some_iff_append, FirstFile]
  constructor
  · rintro ⟨file, before, after, split, others⟩
    exact ⟨before, after, split, file, fun r member => by simpa using others r member⟩
  · rintro ⟨before, after, split, file, others⟩
    exact ⟨file, before, after, split, fun r member => by simp [others r member]⟩

/-- What a relative or an absolute specifier stands for in a file: the specifier is read from the directory of
the file, and of the paths that the result may stand for, the first that is a file is taken. That path is
absolute and in normal form. -/
theorem resolve_first_file (files : FileTree) {specifier : String} {importer whole : Path}
    (rooted : ∀ cwd, files.cwd = some cwd → Path.isAbsolute cwd = true)
    (absolute : files.absolute importer = .ok whole) (named : isPathSpecifier specifier = true) :
    let p := Path.normalize (Path.join (Path.parent whole) specifier)
    let paths := [p, p ++ ".js", p ++ ".jsx", p ++ ".mjs", p ++ ".cjs", p ++ ".ts", p ++ ".tsx",
      Path.join p "index.js", Path.join p "index.jsx", Path.join p "index.mjs",
      Path.join p "index.cjs", Path.join p "index.ts", Path.join p "index.tsx"]
    ∃ found, (resolve files specifier importer).outcome = .ok found ∧
      (∀ q, found = some q ↔ FirstFile files paths q) ∧
      (found = none ↔ ∀ q ∈ paths, files.isFile q = false) ∧
      ∀ q, found = some q → Path.isAbsolute q = true ∧ Path.normalize q = q := by
  intro p paths
  rcases FileTree.exists_normal_of_absolute rooted absolute with ⟨n, rfl⟩
  have folder : Path.isAbsolute (Path.parent n.path) = true := by
    rw [n.parent_path]
    exact Path.Normal.isAbsolute_path _
  rcases Path.exists_normal_of_isAbsolute (Path.isAbsolute_join folder specifier) with ⟨m, normal, -⟩
  have listed : modulePaths p = paths := modulePaths_eq p
  have outcome : (resolve files specifier importer).outcome = .ok (paths.find? files.isFile) := by
    have read : folderOf files importer = Path.parent n.path := by rw [folderOf, absolute]; rfl
    have stands (q : Path) : probe files p = some q ↔ Stands files p q :=
      probe_eq_some_iff (Path.isAbsolute_normalize (Path.isAbsolute_join folder specifier))
    rw [outcome_resolve, if_pos named, ← probe_eq_find?, read, ← listed]
    exact congrArg Except.ok (Option.ext stands)
  refine ⟨_, outcome, fun q => find?_isFile_eq_some_iff, ?_, fun q found => ?_⟩
  · simp only [List.find?_eq_none, Bool.not_eq_true]
  · have member : q ∈ modulePaths m.path := by
      rw [← normal, listed]
      exact List.mem_of_find?_eq_some found
    rcases exists_normal_of_mem_modulePaths member with ⟨k, rfl⟩
    exact ⟨k.isAbsolute_path, k.normalize_path⟩

/-- A link `m` to a directory with an index file, and beside it a directory that is named like a file. -/
def linkedModule : FileTree where
  root := .folder [("w", .folder [
    ("src", .folder [("a.js", .file [])]),
    ("m", .link "lib"),
    ("m.js", .folder []),
    ("lib", .folder [("index.ts", .file [])])])]
  cwd := some "/w"

/-- Neither the link nor the directory is a file, so the index file behind the link is found. -/
theorem resolve_first_file_linked :
    linkedModule.absolute "src/a.js" = .ok "/w/src/a.js" ∧
      (resolve linkedModule "..//./m/" "src/a.js").outcome = .ok (some "/w/m/index.ts") ∧
      Path.normalize "/w/m/index.ts" = "/w/m/index.ts" := by
  have read : Path.absolute "/w" "src/a.js" = "/w/src/a.js" := by decide
  have absolute : linkedModule.absolute "src/a.js" = .ok "/w/src/a.js" := congrArg Except.ok read
  have rooted : ∀ cwd, linkedModule.cwd = some cwd → Path.isAbsolute cwd = true := by
    rintro cwd ⟨rfl⟩
    decide
  rcases resolve_first_file linkedModule rooted absolute (by decide : isPathSpecifier "..//./m/" = true) with
    ⟨found, outcome, first, -, normal⟩
  have module : Path.normalize (Path.join (Path.parent "/w/src/a.js") "..//./m/") = "/w/m" := by decide
  rw [module] at first
  have isIndex : found = some "/w/m/index.ts" := by
    refine (first _).mpr ⟨["/w/m", "/w/m.js", "/w/m.jsx", "/w/m.mjs", "/w/m.cjs", "/w/m.ts", "/w/m.tsx",
      "/w/m/index.js", "/w/m/index.jsx", "/w/m/index.mjs", "/w/m/index.cjs"], ["/w/m/index.tsx"],
      by decide, by decide +kernel, ?_⟩
    have others : (["/w/m", "/w/m.js", "/w/m.jsx", "/w/m.mjs", "/w/m.cjs", "/w/m.ts", "/w/m.tsx",
        "/w/m/index.js", "/w/m/index.jsx", "/w/m/index.mjs", "/w/m/index.cjs"].any
        linkedModule.isFile) = false := by
      decide +kernel
    simpa using others
  exact ⟨absolute, isIndex ▸ outcome, (normal _ isIndex).2⟩

end Resolution

end ContainerKeys
