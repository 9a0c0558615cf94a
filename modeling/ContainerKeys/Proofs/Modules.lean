import ContainerKeys.Proofs.FileTrees
import ContainerKeys.Resolution

/-!
# What a resolution looks at

A resolution asks the file tree about one path after another: whether it is a file, or what the manifest
there says. It stops at the first file. If another tree with the same directories gives the same answers,
the resolution gives the same result there.

* `Resolution.looks` — the paths that a resolution asks about.
* `Resolution.outcome_resolve_eq` — the result depends on the answers alone.
* `Resolution.getLast?_placeOf?_manifestPath` — without links, a manifest bears its own name.
-/

namespace ContainerKeys.Resolution

/-- A question to a file tree. -/
inductive Look where
  /-- Is the path that of a file? -/
  | file (p : Path)
  /-- What does the manifest of a package say? -/
  | manifest (package : Path)

/-- Both trees give the same answer. -/
def Look.Same (t t' : FileTree) : Look → Prop
  | .file p => t.isFile p = t'.isFile p
  | .manifest package =>
    (t.read (manifestPath package)).toOption = (t'.read (manifestPath package)).toOption

/-! ## Probing -/

/-- The paths that a module path may stand for, in order. -/
def candidates (files : FileTree) (p : Path) : List Path :=
  p :: withExtensions p ++ if files.isFolder p then withExtensions (Path.join p "index") else []

/-- A module path stands for the first of its candidates that is a file. -/
theorem probe_eq_find? (files : FileTree) (p : Path) :
    probe files p = (candidates files p).find? files.isFile := by
  unfold probe candidates
  rw [List.cons_append, List.find?_cons, List.find?_append]
  cases files.isFile p with
  | true => rfl
  | false =>
    cases (withExtensions p).find? files.isFile with
    | some found => rfl
    | none => cases files.isFolder p <;> rfl

/-- The questions about paths in order, up to the first file. -/
def tried (files : FileTree) : List Path → List Look
  | [] => []
  | p :: rest => .file p :: if files.isFile p then [] else tried files rest

theorem find?_eq_of_same {t t' : FileTree} {ps : List Path}
    (same : ∀ look ∈ tried t ps, look.Same t t') : ps.find? t.isFile = ps.find? t'.isFile := by
  induction ps with
  | nil => rfl
  | cons p rest ih =>
    have here : t.isFile p = t'.isFile p := same (.file p) List.mem_cons_self
    rw [List.find?_cons, List.find?_cons, ← here]
    cases file : t.isFile p with
    | true => rfl
    | false =>
      apply ih
      intro look member
      apply same look
      rw [tried, file]
      exact List.mem_cons_of_mem _ member

/-! ## Packages -/

/-- The paths that a package by itself may stand for, in order. -/
def mainCandidates (files : FileTree) (package : Path) (main : Option String) : List Path :=
  (main.elim [] fun main => candidates files (Path.normalize (Path.join package main))) ++
    candidates files (Path.join package "index")

theorem outcome_resolveMain (files : FileTree) (package : Path) :
    (resolveMain files package).outcome =
      (packageMain files package).outcome.map fun main =>
        (mainCandidates files package main).find? files.isFile := by
  rw [resolveMain, Attempt.outcome_bind]
  cases (packageMain files package).outcome with
  | error fault => rfl
  | ok main =>
    simp only [Except.map, mainCandidates, List.find?_append, ← probe_eq_find?]
    cases main with
    | none => rfl
    | some main => simp only [Option.elim_some, ← probe_eq_find?]; rfl

/-- The questions about a package, or about a path inside it. -/
def looksInside (files : FileTree) (package : Path) (subpath : String) : List Look :=
  if subpath = "" then
    .manifest package ::
      match (packageMain files package).outcome with
      | .ok main => tried files (mainCandidates files package main)
      | .error _ => []
  else tried files (candidates files (Path.join package subpath))

/-- The questions about a package in directories in order, up to the first that has the file. -/
def looksInFolders (files : FileTree) (name subpath : String) : List Path → List Look
  | [] => []
  | folder :: rest =>
    match packageIn? files name folder with
    | some package =>
      looksInside files package subpath ++
        match (resolveInside files package subpath).outcome with
        | .ok none => looksInFolders files name subpath rest
        | _ => []
    | none => looksInFolders files name subpath rest

/-- A search goes on as long as a directory has no file for the package. -/
theorem outcome_searchFolders_cons (files : FileTree) (name subpath : String) (folder : Path)
    (rest : List Path) :
    (searchFolders files name subpath (folder :: rest)).outcome =
      match packageIn? files name folder with
      | some package =>
        match (resolveInside files package subpath).outcome with
        | .ok none => (searchFolders files name subpath rest).outcome
        | result => result
      | none => (searchFolders files name subpath rest).outcome := by
  rw [searchFolders]
  cases packageIn? files name folder with
  | none => rfl
  | some package =>
    dsimp only
    rw [Attempt.outcome_bind]
    cases (resolveInside files package subpath).outcome with
    | error fault => rfl
    | ok found => cases found <;> rfl

/-- The directory that the specifiers of a file are read from. -/
def folderOf (files : FileTree) (importer : Path) : Path :=
  Path.parent ((files.absolute importer).toOption.getD importer)

/-- The specifier names no package that is searched for: it names nothing or a part of the platform. -/
def NamesNoPackage (specifier : String) : Prop :=
  "node:".toList.isPrefixOf specifier.toList ∨ (splitPackage specifier).1 = "" ∨
    (splitPackage specifier).1 ∈ builtinModules

instance (specifier : String) : Decidable (NamesNoPackage specifier) :=
  inferInstanceAs (Decidable (_ ∨ _))

/-- What a specifier in a file stands for, without the log. -/
theorem outcome_resolve (files : FileTree) (specifier : String) (importer : Path) :
    (resolve files specifier importer).outcome =
      if isPathSpecifier specifier then
        .ok ((candidates files (Path.normalize (Path.join (folderOf files importer) specifier))).find?
          files.isFile)
      else if NamesNoPackage specifier then .ok none
      else (searchFolders files (splitPackage specifier).1 (splitPackage specifier).2
        (Path.ancestors (folderOf files importer))).outcome := by
  rw [← probe_eq_find?]
  unfold resolve folderOf resolvePackage
  dsimp only
  cases isPathSpecifier specifier with
  | true => rfl
  | false =>
    simp only [Bool.false_eq_true, if_false]
    by_cases nothing : NamesNoPackage specifier
    · rw [if_pos nothing]
      unfold NamesNoPackage at nothing
      rw [if_pos nothing]
      rfl
    · rw [if_neg nothing]
      unfold NamesNoPackage at nothing
      rw [if_neg nothing]

/-- The questions about a specifier in a file. -/
def looks (files : FileTree) (specifier : String) (importer : Path) : List Look :=
  if isPathSpecifier specifier then
    tried files
      (candidates files (Path.normalize (Path.join (folderOf files importer) specifier)))
  else if NamesNoPackage specifier then []
  else
    looksInFolders files (splitPackage specifier).1 (splitPackage specifier).2
      (Path.ancestors (folderOf files importer))

section

variable {t t' : FileTree}

theorem readManifest_eq (limit : t.nestingLimit = t'.nestingLimit) {p : Path}
    (read : (t.read p).toOption = (t'.read p).toOption) :
    readManifest t p = readManifest t' p := by
  unfold readManifest
  rw [limit]
  cases h : t.read p with
  | error e =>
    cases h' : t'.read p with
    | error e' => rfl
    | ok bytes => rw [h, h'] at read; cases read
  | ok bytes =>
    cases h' : t'.read p with
    | error e' => rw [h, h'] at read; cases read
    | ok bytes' => rw [h, h'] at read; cases read; rfl

theorem isFile_eq_isSome_read (t : FileTree) (p : Path) :
    t.isFile p = (t.read p).toOption.isSome := by
  unfold FileTree.isFile FileTree.read
  cases t.entry p with
  | error e => rfl
  | ok e => cases e <;> rfl

theorem outcome_packageMain_eq (limit : t.nestingLimit = t'.nestingLimit) {package : Path}
    (same : (Look.manifest package).Same t t') :
    (packageMain t package).outcome = (packageMain t' package).outcome := by
  have file : t.isFile (manifestPath package) = t'.isFile (manifestPath package) := by
    rw [isFile_eq_isSome_read, isFile_eq_isSome_read, same]
  unfold packageMain
  dsimp only
  rw [file, readManifest_eq limit same]

theorem candidates_eq (folders : ∀ p, t.isFolder p = t'.isFolder p) (p : Path) :
    candidates t p = candidates t' p := by
  unfold candidates
  rw [folders p]

theorem mainCandidates_eq (folders : ∀ p, t.isFolder p = t'.isFolder p) (package : Path)
    (main : Option String) : mainCandidates t package main = mainCandidates t' package main := by
  have all : candidates t = candidates t' := funext fun p => candidates_eq folders p
  unfold mainCandidates
  rw [all]

theorem packageIn?_eq (folders : ∀ p, t.isFolder p = t'.isFolder p) (name : String)
    (folder : Path) : packageIn? t name folder = packageIn? t' name folder := by
  unfold packageIn?
  dsimp only
  rw [folders]

theorem outcome_resolveInside_eq (limit : t.nestingLimit = t'.nestingLimit)
    (folders : ∀ p, t.isFolder p = t'.isFolder p) {package : Path} {subpath : String}
    (same : ∀ look ∈ looksInside t package subpath, look.Same t t') :
    (resolveInside t package subpath).outcome = (resolveInside t' package subpath).outcome := by
  unfold looksInside at same
  unfold resolveInside
  by_cases whole : subpath = ""
  · rw [if_pos whole] at same
    rw [if_pos whole, if_pos whole, outcome_resolveMain, outcome_resolveMain,
      ← outcome_packageMain_eq limit (same _ List.mem_cons_self)]
    cases main : (packageMain t package).outcome with
    | error fault => rfl
    | ok main' =>
      rw [main] at same
      simp only [Except.map]
      rw [← mainCandidates_eq folders]
      exact congrArg _ (find?_eq_of_same fun look member => same look (List.mem_cons_of_mem _ member))
  · rw [if_neg whole] at same
    rw [if_neg whole, if_neg whole, probe_eq_find?, probe_eq_find?, ← candidates_eq folders,
      find?_eq_of_same same]

theorem outcome_searchFolders_eq (limit : t.nestingLimit = t'.nestingLimit)
    (folders : ∀ p, t.isFolder p = t'.isFolder p) {name subpath : String} {fs : List Path}
    (same : ∀ look ∈ looksInFolders t name subpath fs, look.Same t t') :
    (searchFolders t name subpath fs).outcome = (searchFolders t' name subpath fs).outcome := by
  induction fs with
  | nil => rfl
  | cons folder rest ih =>
    rw [looksInFolders] at same
    rw [outcome_searchFolders_cons, outcome_searchFolders_cons, ← packageIn?_eq folders]
    cases held : packageIn? t name folder with
    | none =>
      rw [held] at same
      exact ih same
    | some package =>
      rw [held] at same
      dsimp only at same
      have inside := outcome_resolveInside_eq limit folders fun look member =>
        same look (List.mem_append_left _ member)
      dsimp only
      rw [← inside]
      cases found : (resolveInside t package subpath).outcome with
      | error fault => rfl
      | ok result =>
        cases result with
        | some p => rfl
        | none =>
          -- the search goes on, and so do the questions
          apply ih
          intro look member
          apply same look
          rw [found]
          exact List.mem_append_right _ member

/-- A resolution gives the same in two trees with the same directories that answer its questions in the
same way. -/
theorem outcome_resolve_eq (cwd : t.cwd = t'.cwd) (limit : t.nestingLimit = t'.nestingLimit)
    (folders : ∀ p, t.isFolder p = t'.isFolder p) {specifier : String} {importer : Path}
    (same : ∀ look ∈ looks t specifier importer, look.Same t t') :
    (resolve t specifier importer).outcome = (resolve t' specifier importer).outcome := by
  have folder : folderOf t importer = folderOf t' importer := by
    unfold folderOf FileTree.absolute
    rw [cwd]
  unfold looks at same
  rw [outcome_resolve, outcome_resolve, ← folder]
  cases path : isPathSpecifier specifier with
  | true =>
    rw [path, if_pos rfl] at same
    rw [if_pos rfl, if_pos rfl, ← candidates_eq folders, find?_eq_of_same same]
  | false =>
    simp only [path, Bool.false_eq_true, if_false] at same ⊢
    by_cases nothing : NamesNoPackage specifier
    · rw [if_pos nothing, if_pos nothing]
    · rw [if_neg nothing] at same
      rw [if_neg nothing, if_neg nothing]
      exact outcome_searchFolders_eq limit folders same

/-! ## A file that both trees have -/

/-- Without links, a path to a manifest leads to a place of that name. -/
theorem getLast?_placeOf?_manifestPath (noLinks : t.NoLinks) {package : Path}
    {ρ : FileTree.Route} (h : t.placeOf? (manifestPath package) = some ρ) :
    ρ.getLast? = some "package.json" := by
  obtain ⟨front, parts⟩ := Path.parts_join package "package.json"
  have last : (Path.parts "package.json".toList).map Text.nameOf = ["package.json"] := by decide
  have names : FileTree.namesOf (manifestPath package) =
      front.map Text.nameOf ++ ["package.json"] := by
    rw [FileTree.namesOf, manifestPath, parts, List.map_append, last]
  exact FileTree.getLast?_placeOf? noLinks names (by decide) (by decide) h

end

end ContainerKeys.Resolution
