import ContainerKeys.Diagnostic
import ContainerKeys.Enumeration

/-!
# Building the index

The source files below all roots are found, read and indexed, and the results are merged in the order
in which the files were found. A file below several roots counts once. No file and no root can make a
build fail.
-/

namespace ContainerKeys

/-- A stage of a build. -/
inductive Phase where
  | finding
  | indexing
deriving DecidableEq, Repr

/-- The name of a phase. -/
def Phase.name : Phase → String
  | .finding => "structure"
  | .indexing => "indexing"

/-- What a phase does. -/
def Phase.label : Phase → String
  | .finding => "Enumerating source files"
  | .indexing => "Indexing registrations and usages"

/-- The figures of a build. -/
structure Stats where
  roots : Nat := 0
  filesFound : Nat := 0
  filesIndexed : Nat := 0
  filesFailed : Nat := 0
  keys : Nat := 0
  usages : Nat := 0
  duplicates : Nat := 0
  /-- The phases that were run, in order. -/
  phases : List Phase := []
deriving DecidableEq, Repr

namespace Build

/-- The source files below one root; none if it is no directory. -/
def filesBelow (files : FileTree) (settings : Settings) (root : Path) : Logged (List Path) := do
  match ← (enumerate files settings root).run with
  | .error fault =>
    Logged.note .warning .building ("Failed to enumerate " ++ root ++ ": " ++ fault.message)
    return []
  | .ok found =>
    if found = [] then
      Logged.note .warning .building ("No source files found under " ++ root)
    else
      Logged.note .info .building
        ("Found " ++ toString found.length ++ " source files under " ++ root)
    return found

/-- The source files below all roots, each once. -/
def findFiles (files : FileTree) (settings : Settings) : Logged (List Path) := do
  let found ← settings.roots.mapM (filesBelow files settings)
  return distinct found.flatten

/-- Merges file indexes and takes the figures. -/
def conclude (settings : Settings) (indexes : List FileIndex) : Logged (Index × Stats) := do
  let index ← Index.empty.mergeAll indexes
  let failed := indexes.countP (·.fault.isSome)
  Logged.note .info .building
    ("Index build complete: " ++ toString index.keys.size ++ " keys, " ++
      toString index.usages.length ++ " usages, " ++ toString failed ++ " file(s) skipped")
  return (index, {
    roots := settings.roots.length
    filesFound := indexes.length
    filesIndexed := indexes.countP (·.fault.isNone)
    filesFailed := failed
    keys := index.keys.size
    usages := index.usages.length
    duplicates := index.duplicates.length
    phases := [.finding, .indexing] })

end Build

/-- Builds the index of a workspace. -/
def build (w : Workspace) (settings : Settings) : Logged (Index × Stats) := do
  if settings.roots = [] then
    Logged.note .info .building "No workspace roots configured; index is empty"
    return (.empty, {})
  else
    Logged.note .info .building
      ("Building index over " ++ toString settings.roots.length ++ " root(s)")
    let files ← Build.findFiles w.files settings
    let indexes ← files.mapM (FileIndex.ofFile w settings.containerNames)
    Build.conclude settings indexes

end ContainerKeys
