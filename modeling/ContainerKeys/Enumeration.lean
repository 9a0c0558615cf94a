import ContainerKeys.FileTree.Basic
import ContainerKeys.Glob
import ContainerKeys.Log
import ContainerKeys.Settings

/-!
# Finding source files

The source files below a root: the files of a directory by name, then those of its sub-directories by
name. Directories that are left out are not entered, and neither are links to directories; a root may
be such a link. A directory that may not be listed, or whose path has grown too long for it, is noted and
passed over with all that is below it.
-/

namespace ContainerKeys

/-- A search for source files below one root. -/
structure Survey where
  files : FileTree
  settings : Settings

/-- A directory met in a search: its path, and its path from the root, which is empty at the root. -/
structure Spot where
  path : Path
  fromRoot : String

namespace Spot

/-- The path from the root to an entry of the directory. -/
def entryFromRoot (s : Spot) (name : String) : String :=
  if s.fromRoot = "" then name else s.fromRoot ++ "/" ++ name

/-- The path of an entry of the directory. -/
def entryPath (s : Spot) (name : String) : Path :=
  Path.join s.path name

/-- A sub-directory. -/
def below (s : Spot) (name : String) : Spot :=
  ⟨s.entryPath name, s.entryFromRoot name⟩

/-- What keeps the directory from being listed, if anything does. -/
def barrier? (s : Spot) (listable : Bool) : Option FileError :=
  if FileTree.pathLimit < s.path.utf8ByteSize then some .nameTooLong
  else if listable then none
  else some .denied

end Spot

namespace Survey

/-- The globs of what is left out. -/
def rules (s : Survey) : IgnoreRules :=
  .ofPatterns s.settings.ignorePatterns

/-- Does an entry count as a directory? A link to a directory does. -/
def countsAsFolder (s : Survey) (spot : Spot) (name : String) : Entry → Bool
  | .folder .. => true
  | .link _ => s.files.isFolder (spot.entryPath name)
  | .file _ => false

/-- Is a file accepted, by its extension, the globs and its size? -/
def acceptFile (s : Survey) (spot : Spot) (name : String) : Logged Bool := do
  if !s.settings.isSource name || s.rules.ignores (spot.entryFromRoot name) then return false
  else
    let path := spot.entryPath name
    match s.files.size path with
    | .error fault =>
      Logged.note .warning .enumeration ("Failed to stat " ++ path ++ ": " ++ fault.message)
      return false
    | .ok size =>
      if s.settings.maxFileSize < size then
        Logged.note .debug .enumeration
          ("Skipping " ++ path ++ ": " ++ toString size ++ " bytes exceeds limit")
        return false
      else return true

/-- The paths of the accepted files among some names, in their order. -/
def acceptFiles (s : Survey) (spot : Spot) : List String → Logged (List Path)
  | [] => return []
  | name :: rest => do
    let accepted ← s.acceptFile spot name
    let more ← s.acceptFiles spot rest
    return if accepted then spot.entryPath name :: more else more

/-- The names of the entries that count as files, sorted. -/
def fileNames (s : Survey) (spot : Spot) (entries : List (String × Entry)) : List String :=
  ((entries.filter fun e => !s.countsAsFolder spot e.1 e.2).map Prod.fst).mergeSort (· ≤ ·)

mutual

/-- The source files of the directory at a spot and below. -/
def sourcesIn (s : Survey) (spot : Spot) : Entry → Logged (List Path)
  | .folder entries listable => do
    match spot.barrier? listable with
    | some error =>
      Logged.note .warning .enumeration ("Cannot list " ++ spot.path ++ ": " ++ error.message)
      return []
    | none =>
      let here ← s.acceptFiles spot (s.fileNames spot entries)
      let below ← s.sourcesBelow spot entries
      return here ++ (below.mergeSort fun a b => a.1 ≤ b.1).flatMap Prod.snd
  | _ => return []

/-- The names of the sub-directories that are entered, each with the source files in it. -/
def sourcesBelow (s : Survey) (spot : Spot) :
    List (String × Entry) → Logged (List (String × List Path))
  | [] => return []
  | (name, .folder entries listable) :: rest => do
    let here ←
      if s.rules.ignores (spot.entryFromRoot name) then pure []
      else do pure [(name, ← s.sourcesIn (spot.below name) (.folder entries listable))]
    let more ← s.sourcesBelow spot rest
    return here ++ more
  | _ :: rest => s.sourcesBelow spot rest

end

end Survey

/-- Why there is nothing to be found below a root. -/
inductive RootFault where
  /-- The root is no directory; its path is absolute. -/
  | notFolder (path : Path)
  | path (fault : PathFault)
deriving DecidableEq, Repr

/-- The wording of a fault. -/
def RootFault.message : RootFault → String
  | .notFolder p => "not a directory: " ++ p
  | .path fault => fault.message

/-- The source files below a root. -/
def enumerate (files : FileTree) (settings : Settings) (root : Path) :
    Attempt RootFault (List Path) := do
  let path ← Attempt.ofExcept ((files.absolute root).mapError .path)
  match files.entry path with
  | .ok (.folder entries listable) =>
    ExceptT.lift (Survey.sourcesIn ⟨files, settings⟩ ⟨path, ""⟩ (.folder entries listable))
  | _ => throw (.notFolder path)

end ContainerKeys
